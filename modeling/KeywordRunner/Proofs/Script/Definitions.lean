import KeywordRunner.Script.Registry
import Mathlib.Data.List.Induction

/-!
# Proofs.Script.Definitions — what a name stands for

A registry holds two tables, and four acts change them: a keyword is registered, a library is
catalogued, a catalogued library is imported, and a reset drops every keyword but the built-in ones.
What a name stands for can be told from the acts alone: it is what the last act since the last reset
gave it, and where no act did, what it was in the beginning. An import gives what the library says
that was catalogued last by then; to catalogue a library anew changes nothing of what was imported
before.

* **`Catalogued`**, **`Defines`**, **`LastDefines`** — what acts say of a name.
* **`libraries_run`** — the catalogue holds what was catalogued last under each name.
* **`get?_run_iff`** — a name stands for what the last act since the last reset gave it.
* **`last_definition_counts`** — both, and what follows for the built-in keywords, refused and
  repeated imports, and the list of names.
-/

namespace KeywordRunner.Script.Registry

variable {n : Type → Type}

/-- What can be done with a registry. -/
inductive Act (n : Type → Type) where
  | register (name : String) (keyword : Keyword n)
  | addLibrary (library : Library n)
  | importLibrary (key : String)
  | reset

/-- The registry after an act. An import of what is not catalogued leaves it as it is. -/
def apply [Pure n] (r : Registry n) : Act n → Registry n
  | .register name keyword => r.register name keyword
  | .addLibrary library => r.addLibrary library
  | .importLibrary key =>
    match r.importLibrary key with
    | some (r', _) => r'
    | none => r
  | .reset => r.reset

/-- The registry that acts make of the built-in keywords, the first act first. -/
def run [Pure n] (acts : List (Act n)) : Registry n := acts.foldl apply new

/-! ## What acts say of a name -/

/-- The library that was catalogued last under a name. -/
def Catalogued (acts : List (Act n)) (key : String) (library : Library n) : Prop :=
  ∃ before after, acts = before ++ .addLibrary library :: after ∧ library.name = key ∧
    ∀ l, .addLibrary l ∈ after → l.name ≠ key

/-- An act gives a name to a keyword, after the acts `before`: it registers the keyword, or it
imports a library in whose list this is the last entry of the name. -/
inductive Defines (before : List (Act n)) (name : String) : Act n → Keyword n → Prop where
  | register (keyword : Keyword n) : Defines before name (.register name keyword) keyword
  | importLibrary {key : String} {library : Library n} {keyword : Keyword n}
      {earlier later : List (String × Keyword n)} (hlibrary : Catalogued before key library)
      (hentries : library.keywords = earlier ++ (name, keyword) :: later)
      (hlast : name ∉ Entries.keys later) : Defines before name (.importLibrary key) keyword

/-- An act leaves a name alone: it is no reset and does not define the name. -/
def Spares (before : List (Act n)) (name : String) (act : Act n) : Prop :=
  act ≠ .reset ∧ ∀ keyword, ¬Defines before name act keyword

/-- Acts that follow `before` and all leave a name alone. -/
def SparesAll (before : List (Act n)) (name : String) (acts : List (Act n)) : Prop :=
  ∀ mid act later, acts = mid ++ act :: later → Spares (before ++ mid) name act

/-- The last act since the last reset that defines a name gives it to a keyword. -/
def LastDefines (acts : List (Act n)) (name : String) (keyword : Keyword n) : Prop :=
  ∃ before act after, acts = before ++ act :: after ∧ Defines before name act keyword ∧
    SparesAll (before ++ [act]) name after

/-! ## One act more

Each notion is followed from one act to the next, so that a run can be taken from its end.
-/

/-- An entry of a list with one more at its end is that one, or stands before it. -/
theorem concat_eq_append_cons_iff {α : Type} {xs before after : List α} {x y : α} :
    xs ++ [x] = before ++ y :: after ↔
      (xs = before ∧ x = y ∧ after = []) ∨
        ∃ after', after = after' ++ [x] ∧ xs = before ++ y :: after' := by
  constructor
  · intro h
    rcases List.eq_nil_or_concat after with rfl | ⟨after', z, rfl⟩
    · obtain ⟨hxs, hx⟩ := List.append_inj' h rfl
      exact Or.inl ⟨hxs, List.head_eq_of_cons_eq hx, rfl⟩
    · rw [List.concat_eq_append, ← List.cons_append, ← List.append_assoc] at h
      obtain ⟨hxs, hx⟩ := List.append_inj' h rfl
      cases hx
      exact Or.inr ⟨after', List.concat_eq_append, hxs⟩
  · rintro (⟨rfl, rfl, rfl⟩ | ⟨after', rfl, rfl⟩)
    · rfl
    · rw [List.append_assoc, List.cons_append]

/-- The last entry of a name counts, hence the first one seen from the end. -/
theorem find?_reverse_eq_some_iff {α : Type} {name : String} {value : α}
    {es : List (String × α)} :
    Entries.find? name es.reverse = some value ↔
      ∃ earlier later, es = earlier ++ (name, value) :: later ∧ name ∉ Entries.keys later := by
  induction es using List.reverseRecOn with
  | nil =>
    refine iff_of_false (fun h => by simp [Entries.find?] at h) ?_
    rintro ⟨earlier, later, hsplit, _⟩
    exact absurd hsplit (by simp)
  | append_singleton es e ih =>
    rw [List.reverse_append, List.reverse_singleton, List.singleton_append, Entries.find?]
    by_cases hname : e.1 = name
    · rw [if_pos hname, Option.some_inj]
      constructor
      · rintro rfl
        exact ⟨es, [], by rw [← hname], List.not_mem_nil⟩
      · rintro ⟨earlier, later, hsplit, hlater⟩
        rcases concat_eq_append_cons_iff.1 hsplit with ⟨_, rfl, _⟩ | ⟨later', rfl, _⟩
        · rfl
        · exact absurd (by simp [Entries.keys, hname]) hlater
    · rw [if_neg hname, ih]
      constructor
      · rintro ⟨earlier, later, rfl, hlater⟩
        refine ⟨earlier, later ++ [e], by rw [List.append_assoc, List.cons_append], ?_⟩
        rw [Entries.keys, List.map_append, List.mem_append, List.map_singleton,
          List.mem_singleton]
        rintro (hmem | heq)
        · exact hlater hmem
        · exact hname heq.symm
      · rintro ⟨earlier, later, hsplit, hlater⟩
        rcases concat_eq_append_cons_iff.1 hsplit with ⟨_, rfl, _⟩ | ⟨later', rfl, hes⟩
        · exact absurd rfl hname
        · refine ⟨earlier, later', hes, fun hmem => hlater ?_⟩
          rw [Entries.keys, List.map_append]
          exact List.mem_append_left _ hmem

section Concat

variable {acts before after : List (Act n)} {act x : Act n} {name key : String}
  {keyword : Keyword n} {library : Library n}

theorem catalogued_concat_iff :
    Catalogued (acts ++ [act]) key library ↔
      (act = .addLibrary library ∧ library.name = key) ∨
        Catalogued acts key library ∧ ∀ l, act = .addLibrary l → l.name ≠ key := by
  constructor
  · rintro ⟨before, after, hsplit, hname, hlater⟩
    rcases concat_eq_append_cons_iff.1 hsplit with ⟨_, hact, _⟩ | ⟨after', rfl, hacts⟩
    · exact Or.inl ⟨hact, hname⟩
    · refine Or.inr ⟨⟨before, after', hacts, hname, fun l hl => ?_⟩, fun l hl => ?_⟩
      · exact hlater l (List.mem_append_left _ hl)
      · exact hlater l (List.mem_append_right _ (List.mem_singleton.2 hl.symm))
  · rintro (⟨rfl, hname⟩ | ⟨⟨before, after, rfl, hname, hlater⟩, hact⟩)
    · exact ⟨acts, [], rfl, hname, fun l hl => absurd hl List.not_mem_nil⟩
    · refine ⟨before, after ++ [act], ?_, hname, fun l hl => ?_⟩
      · rw [List.append_assoc, List.cons_append]
      · rcases List.mem_append.1 hl with hl | hl
        · exact hlater l hl
        · exact hact l (List.mem_singleton.1 hl).symm

theorem not_catalogued_nil : ¬Catalogued ([] : List (Act n)) key library := by
  rintro ⟨before, after, hsplit, _⟩
  exact absurd hsplit (by simp)

theorem sparesAll_nil : SparesAll before name [] := by
  intro mid act later hsplit
  exact absurd hsplit (by simp)

theorem sparesAll_concat_iff :
    SparesAll before name (after ++ [act]) ↔
      SparesAll before name after ∧ Spares (before ++ after) name act := by
  constructor
  · intro h
    refine ⟨fun mid x later hsplit => ?_, h after act [] rfl⟩
    exact h mid x (later ++ [act]) (by rw [hsplit, List.append_assoc, List.cons_append])
  · rintro ⟨hbefore, hlast⟩ mid x later hsplit
    rcases concat_eq_append_cons_iff.1 hsplit with ⟨rfl, rfl, _⟩ | ⟨later', _, hafter⟩
    · exact hlast
    · exact hbefore mid x later' hafter

theorem lastDefines_concat_iff :
    LastDefines (acts ++ [act]) name keyword ↔
      Defines acts name act keyword ∨
        LastDefines acts name keyword ∧ Spares acts name act := by
  constructor
  · rintro ⟨before, x, after, hsplit, hdefines, hspares⟩
    rcases concat_eq_append_cons_iff.1 hsplit with ⟨rfl, rfl, _⟩ | ⟨after', rfl, rfl⟩
    · exact Or.inl hdefines
    · obtain ⟨hspares, hlast⟩ := sparesAll_concat_iff.1 hspares
      rw [List.append_assoc, List.singleton_append] at hlast
      exact Or.inr ⟨⟨before, x, after', rfl, hdefines, hspares⟩, hlast⟩
  · rintro (hdefines | ⟨⟨before, x, after, rfl, hdefines, hspares⟩, hlast⟩)
    · exact ⟨acts, act, [], rfl, hdefines, sparesAll_nil⟩
    · refine ⟨before, x, after ++ [act], ?_, hdefines, sparesAll_concat_iff.2 ⟨hspares, ?_⟩⟩
      · rw [List.append_assoc, List.cons_append]
      · rw [List.append_assoc, List.singleton_append]
        exact hlast

theorem not_lastDefines_nil : ¬LastDefines ([] : List (Act n)) name keyword := by
  rintro ⟨before, act, after, hsplit, _⟩
  exact absurd hsplit (by simp)

end Concat

/-! ## Imports -/

section Imports

variable {name key : String} {library : Library n} {r : Registry n}

theorem importLibrary_of_get?_eq_some (h : r.libraries.get? key = some library) :
    r.importLibrary key
      = some ({ r with keywords := r.keywords.insertAll library.keywords },
          library.keywords.length) := by
  unfold importLibrary
  rw [h, Option.map_some]

theorem importLibrary_eq_none_iff : r.importLibrary key = none ↔ r.libraries.get? key = none := by
  unfold importLibrary
  rw [Option.map_eq_none_iff]

end Imports

/-! ## The two tables -/

section Run

variable [Pure n] {acts : List (Act n)} {act : Act n} {name key : String} {keyword : Keyword n}
  {library : Library n} {r : Registry n}

theorem run_concat (acts : List (Act n)) (act : Act n) :
    run (acts ++ [act]) = (run acts).apply act := by
  rw [run, List.foldl_append]
  rfl

theorem apply_importLibrary_of_some (h : r.libraries.get? key = some library) :
    r.apply (.importLibrary key)
      = { r with keywords := r.keywords.insertAll library.keywords } := by
  unfold apply
  dsimp only
  rw [importLibrary_of_get?_eq_some h]

theorem apply_importLibrary_of_none (h : r.libraries.get? key = none) :
    r.apply (.importLibrary key) = r := by
  unfold apply
  dsimp only
  rw [importLibrary_eq_none_iff.2 h]

/-- Only cataloguing changes the catalogue. -/
theorem libraries_apply (h : ∀ l, act ≠ .addLibrary l) : (r.apply act).libraries = r.libraries := by
  cases act with
  | register name keyword => rfl
  | addLibrary library => exact absurd rfl (h library)
  | importLibrary key =>
    cases hlibrary : r.libraries.get? key with
    | none => rw [apply_importLibrary_of_none hlibrary]
    | some library => rw [apply_importLibrary_of_some hlibrary]
  | reset => rfl

/-- **The catalogue holds the library that was catalogued last under a name.** -/
theorem libraries_run : (run acts).libraries.get? key = some library ↔
    Catalogued acts key library := by
  induction acts using List.reverseRecOn with
  | nil => exact iff_of_false (by simp [run, new]) not_catalogued_nil
  | append_singleton acts act ih =>
    rw [run_concat, catalogued_concat_iff]
    by_cases hadd : ∃ l, act = .addLibrary l
    · obtain ⟨l, rfl⟩ := hadd
      show ((run acts).libraries.insert l.name l).get? key = some library ↔ _
      rw [Table.get?_insert, Act.addLibrary.injEq]
      by_cases hkey : key = l.name
      · rw [if_pos hkey, Option.some_inj]
        constructor
        · rintro rfl
          exact Or.inl ⟨rfl, hkey.symm⟩
        · rintro (⟨rfl, _⟩ | ⟨_, hother⟩)
          · rfl
          · exact absurd hkey.symm (hother l rfl)
      · rw [if_neg hkey, ih]
        constructor
        · intro h
          refine Or.inr ⟨h, fun l' hl' => ?_⟩
          cases hl'
          exact Ne.symm hkey
        · rintro (⟨rfl, hname⟩ | ⟨h, _⟩)
          · exact absurd hname.symm hkey
          · exact h
    · have hother : ∀ l, act ≠ .addLibrary l := not_exists.1 hadd
      rw [libraries_apply hother, ih]
      constructor
      · intro h
        exact Or.inr ⟨h, fun l hl => absurd hl (hother l)⟩
      · rintro (⟨hact, _⟩ | ⟨h, _⟩)
        · exact absurd hact (hother library)
        · exact h

/-- At the beginning, and after a reset, the built-in keywords are there and nothing else. -/
theorem get?_new_iff : (new : Registry n).get? name = some keyword ↔
    (name, keyword) ∈ Keyword.builtins := by
  have hne : Keyword.importName ≠ Keyword.checkName := by decide
  show ((Table.empty : Table (Keyword n)).insertAll Keyword.builtins).get? name = some keyword ↔ _
  rw [Table.get?_insertAll, Keyword.builtins, List.reverse_cons, List.reverse_singleton,
    List.singleton_append, Entries.find?, Entries.find?, Entries.find?, List.mem_cons,
    List.mem_singleton, Prod.mk.injEq, Prod.mk.injEq]
  by_cases hcheck : Keyword.checkName = name
  · subst hcheck
    simp [hne.symm, eq_comm]
  · by_cases himport : Keyword.importName = name
    · subst himport
      simp [hne.symm, hne, eq_comm]
    · simp [hcheck, himport, Ne.symm hcheck, Ne.symm himport, Table.get?, Table.empty,
        Entries.find?]

/-- An act that defines a name gives it to that keyword. -/
theorem get?_apply_of_defines (h : Defines acts name act keyword) :
    ((run acts).apply act).get? name = some keyword := by
  cases h with
  | register =>
    show ((run acts).keywords.insert name keyword).get? name = some keyword
    rw [Table.get?_insert, if_pos rfl]
  | importLibrary hlibrary hentries hlast =>
    rw [apply_importLibrary_of_some (libraries_run.2 hlibrary)]
    show ((run acts).keywords.insertAll _).get? name = some keyword
    rw [Table.get?_insertAll, find?_reverse_eq_some_iff.2 ⟨_, _, hentries, hlast⟩, Option.some_or]

/-- An act that spares a name leaves it to what it stood for. -/
theorem get?_apply_of_spares (h : Spares acts name act) :
    ((run acts).apply act).get? name = (run acts).get? name := by
  obtain ⟨hreset, hspares⟩ := h
  cases act with
  | register name' keyword =>
    have hname : name ≠ name' := by
      rintro rfl
      exact hspares keyword (.register keyword)
    show ((run acts).keywords.insert name' keyword).get? name = (run acts).keywords.get? name
    rw [Table.get?_insert, if_neg hname]
  | addLibrary library => rfl
  | importLibrary key =>
    cases hlibrary : (run acts).libraries.get? key with
    | none => rw [apply_importLibrary_of_none hlibrary]
    | some library =>
      have hnone : Entries.find? name library.keywords.reverse = none := by
        rw [Option.eq_none_iff_forall_ne_some]
        intro keyword hfind
        obtain ⟨earlier, later, hentries, hlast⟩ := find?_reverse_eq_some_iff.1 hfind
        exact hspares keyword (.importLibrary (libraries_run.1 hlibrary) hentries hlast)
      rw [apply_importLibrary_of_some hlibrary]
      show ((run acts).keywords.insertAll library.keywords).get? name
        = (run acts).keywords.get? name
      rw [Table.get?_insertAll, hnone, Option.none_or]
  | reset => exact absurd rfl hreset

/-- **A name stands for what the last act since the last reset gave it; where no act did, it stands
for the built-in keyword of that name.** -/
theorem get?_run_iff : (run acts).get? name = some keyword ↔
    LastDefines acts name keyword ∨
      (¬∃ k, LastDefines acts name k) ∧ (name, keyword) ∈ Keyword.builtins := by
  induction acts using List.reverseRecOn with
  | nil =>
    have hnone : ¬∃ k : Keyword n, LastDefines [] name k :=
      not_exists.2 fun _ => not_lastDefines_nil
    exact get?_new_iff.trans
      ⟨fun h => Or.inr ⟨hnone, h⟩, fun h => (h.resolve_left not_lastDefines_nil).2⟩
  | append_singleton acts act ih =>
    rw [run_concat]
    simp only [lastDefines_concat_iff]
    by_cases hreset : act = .reset
    · -- what was there before the reset no longer counts
      subst hreset
      have hdefines : ∀ k, ¬Defines acts name .reset k := fun k h => nomatch h
      have hspares : ¬Spares acts name .reset := fun h => h.1 rfl
      show (new : Registry n).get? name = some keyword ↔ _
      simpa [hdefines, hspares] using get?_new_iff
    · by_cases hdefines : ∃ k, Defines acts name act k
      · obtain ⟨k, hk⟩ := hdefines
        have hspares : ¬Spares acts name act := fun h => h.2 k hk
        rw [get?_apply_of_defines hk, Option.some_inj]
        constructor
        · rintro rfl
          exact Or.inl (Or.inl hk)
        · rintro ((hother | ⟨_, h⟩) | ⟨hnone, _⟩)
          · have htwice := (get?_apply_of_defines hk).symm.trans (get?_apply_of_defines hother)
            exact Option.some_inj.1 htwice
          · exact absurd h hspares
          · exact absurd ⟨k, Or.inl hk⟩ hnone
      · have hspares : Spares acts name act := ⟨hreset, not_exists.1 hdefines⟩
        rw [get?_apply_of_spares hspares, ih]
        simp only [not_exists.1 hdefines, hspares, false_or, and_true]

theorem get?_run_eq_none_iff : (run acts).get? name = none ↔
    (¬∃ k, LastDefines acts name k) ∧ name ∉ [Keyword.importName, Keyword.checkName] := by
  have hbuiltins : name ∈ [Keyword.importName, Keyword.checkName] ↔
      ∃ keyword : Keyword n, (name, keyword) ∈ Keyword.builtins := by
    simp [Keyword.builtins, exists_or]
  rw [Option.eq_none_iff_forall_ne_some, hbuiltins]
  simp only [Ne, get?_run_iff]
  constructor
  · intro h
    have hnone : ¬∃ k, LastDefines acts name k := by
      rintro ⟨k, hk⟩
      exact h k (Or.inl hk)
    refine ⟨hnone, ?_⟩
    rintro ⟨k, hk⟩
    exact h k (Or.inr ⟨hnone, hk⟩)
  · rintro ⟨hnone, hother⟩ k (hk | ⟨_, hk⟩)
    · exact hnone ⟨k, hk⟩
    · exact hother ⟨k, hk⟩

/-- No act takes a built-in name away. -/
theorem contains_run_of_builtin (h : name ∈ [Keyword.importName, Keyword.checkName]) :
    (run acts).contains name = true := by
  show ((run acts).get? name).isSome = true
  rw [Option.isSome_iff_ne_none, Ne, get?_run_eq_none_iff]
  exact fun hnone => hnone.2 h

/-- What an import gives it would give again. -/
theorem apply_importLibrary_twice (r : Registry n) (key : String) :
    (r.apply (.importLibrary key)).apply (.importLibrary key) = r.apply (.importLibrary key) := by
  cases hlibrary : r.libraries.get? key with
  | none => rw [apply_importLibrary_of_none hlibrary, apply_importLibrary_of_none hlibrary]
  | some library =>
    have hlibrary' : (r.apply (.importLibrary key)).libraries.get? key = some library := by
      rw [libraries_apply (by simp), hlibrary]
    rw [apply_importLibrary_of_some hlibrary', apply_importLibrary_of_some hlibrary]
    refine congrArg (Registry.mk · r.libraries) (Table.ext_find? fun name => ?_)
    rw [Table.get?_insertAll, Table.get?_insertAll, ← Option.or_assoc, Option.or_self]

end Run

/-- **The last definition since the last reset counts.** Whatever is done with a registry:

* a name stands for what the last act since the last reset gave it, else for the built-in keyword of
  that name, else for nothing;
* the built-in names are always there, and a reset gives them back what they were;
* an import fails just where nothing is catalogued under the name, and then changes nothing; the
  same import twice is the same as once;
* the catalogue holds what was catalogued last, and a reset keeps it;
* the names are listed in order, without repetition, and are the ones that stand for something. -/
theorem last_definition_counts [Pure n] (acts : List (Act n)) :
    (∀ name keyword, (run acts).get? name = some keyword ↔
      LastDefines acts name keyword ∨
        (¬∃ k, LastDefines acts name k) ∧ (name, keyword) ∈ Keyword.builtins) ∧
    (∀ name, (run acts).get? name = none ↔
      (¬∃ k, LastDefines acts name k) ∧ name ∉ [Keyword.importName, Keyword.checkName]) ∧
    (∀ name ∈ [Keyword.importName, Keyword.checkName], (run acts).contains name = true) ∧
    ((run (acts ++ [.reset])).get? Keyword.importName = some Keyword.importKeyword ∧
      (run (acts ++ [.reset])).get? Keyword.checkName = some Keyword.checkKeyword) ∧
    (∀ key, ((run acts).importLibrary key = none ↔ ¬∃ library, Catalogued acts key library) ∧
      ((run acts).importLibrary key = none → run (acts ++ [.importLibrary key]) = run acts) ∧
      run (acts ++ [.importLibrary key, .importLibrary key]) = run (acts ++ [.importLibrary key])) ∧
    ((∀ key library, (run acts).libraries.get? key = some library ↔ Catalogued acts key library) ∧
      (run (acts ++ [.reset])).libraries = (run acts).libraries) ∧
    (run acts).names.Pairwise (· < ·) ∧
    (∀ name, name ∈ (run acts).names ↔ ∃ keyword, (run acts).get? name = some keyword) := by
  have hreset : run (acts ++ [.reset]) = (run acts).reset := run_concat acts .reset
  refine ⟨fun name keyword => get?_run_iff, fun name => get?_run_eq_none_iff,
    fun name h => contains_run_of_builtin h, ⟨?_, ?_⟩, fun key => ⟨?_, fun h => ?_, ?_⟩,
    ⟨fun key library => libraries_run, ?_⟩, Table.pairwise_keys _, fun name => Table.mem_keys⟩
  · rw [hreset]
    exact get?_new_iff.2 (List.mem_cons_self)
  · rw [hreset]
    exact get?_new_iff.2 (List.mem_cons_of_mem _ (List.mem_singleton_self _))
  · rw [importLibrary_eq_none_iff, Option.eq_none_iff_forall_ne_some, not_exists]
    exact forall_congr' fun library => not_congr libraries_run
  · rw [run_concat, apply_importLibrary_of_none (importLibrary_eq_none_iff.1 h)]
  · rw [List.append_cons, run_concat, run_concat, apply_importLibrary_twice]
  · rw [hreset]
    rfl

end KeywordRunner.Script.Registry
