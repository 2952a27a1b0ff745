import KeywordRunner.Proofs.Script.Pieces
import KeywordRunner.Proofs.Script.References

/-!
# Proofs.Script.Admission — which scripts can be loaded

A script is loaded when each of its lines uses names that are known at its place. What is known
there is said of the text: the names known before, the names that earlier lines bind, and the
keywords of the libraries that earlier lines import. Which words read a variable is said by their
form (see `Token.Refers`).

* **`Interpreter.Declares`**, **`Interpreter.Calls`** — the names that are known behind some lines.
* **`Interpreter.Admits`**, **`Interpreter.Refuses`** — the rules by which a line may stand there,
  and by which it may not, in the order in which they count.
* **`admits_or_refuses`** — for every line there is a rule.
* **`load_accepts_scoped`** — the loader follows the rules.
-/

namespace KeywordRunner.Script

/-! ## Names in words -/

namespace Line

/-- All variables that some words read are known. -/
def ReadsKnown (known : String → Prop) (words : List String) : Prop :=
  ∀ word ∈ words, ∀ name attr, Token.Refers word name attr → known name

/-- The leftmost of some words that reads an unknown variable reads this one. -/
def FirstUnknown (known : String → Prop) (words : List String) (name : String) : Prop :=
  ∃ before word after attr, words = before ++ word :: after ∧ ReadsKnown known before ∧
    Token.Refers word name attr ∧ ¬known name

theorem ReadsKnown.cons {known : String → Prop} {word : String} {words : List String}
    (hword : ∀ name attr, Token.Refers word name attr → known name)
    (hwords : ReadsKnown known words) : ReadsKnown known (word :: words) := by
  intro w hw
  rcases List.mem_cons.1 hw with rfl | hw
  · exact hword
  · exact hwords w hw

theorem FirstUnknown.cons {known : String → Prop} {word name : String} {words : List String}
    (hword : ∀ name attr, Token.Refers word name attr → known name)
    (hwords : FirstUnknown known words name) : FirstUnknown known (word :: words) name := by
  obtain ⟨before, w, after, attr, hsplit, hbefore, hw, hname⟩ := hwords
  refine ⟨word :: before, w, after, attr, ?_, hbefore.cons hword, hw, hname⟩
  rw [hsplit, List.cons_append]

theorem readsKnown_or_firstUnknown (known : String → Prop) (words : List String) :
    ReadsKnown known words ∨ ∃ name, FirstUnknown known words name := by
  induction words with
  | nil => exact Or.inl fun word hword => absurd hword List.not_mem_nil
  | cons word words ih =>
    by_cases hword : ∀ name attr, Token.Refers word name attr → known name
    · exact ih.imp (fun h => h.cons hword) fun ⟨name, h⟩ => ⟨name, h.cons hword⟩
    · -- the first word itself reads an unknown variable
      obtain ⟨name, hname⟩ := Classical.not_forall.1 hword
      obtain ⟨attr, hattr⟩ := Classical.not_forall.1 hname
      obtain ⟨hrefers, hunknown⟩ := Classical.not_imp.1 hattr
      exact Or.inr ⟨name, [], word, words, attr, rfl,
        fun w hw => absurd hw List.not_mem_nil, hrefers, hunknown⟩

/-- A line with an unknown variable says something. -/
theorem FirstUnknown.exists_keyword {known : String → Prop} {line : Line} {name : String}
    (h : FirstUnknown known line.items name) : ∃ keyword, line.keyword = some keyword := by
  obtain ⟨before, word, after, attr, hitems, _⟩ := h
  rw [Line.keyword, hitems]
  cases before with
  | nil => exact ⟨word, rfl⟩
  | cons first before => exact ⟨first, rfl⟩

theorem isComment_eq_false_of_keyword {line : Line} {keyword : String}
    (h : line.keyword = some keyword) : line.isComment = false := by
  cases hcomment : line.isComment with
  | false => rfl
  | true =>
    rw [keyword_of_isComment hcomment] at h
    exact absurd h (by simp)

/-- What a line of a text says, if it is not blank and can be read. -/
def SaidBy (text : String) (number : LineNumber) (line : Line) : Prop :=
  Text.isBlankText (Text.dropReturns text) = false ∧
    read (Text.dropReturns text) number = .ok line

end Line

namespace Interpreter

variable {n : Type → Type}

/-! ## The rules -/

/-- The variables that are known behind some lines: those known before, and those that the lines
bind. -/
def Declares (it : Interpreter n) (earlier : List Line) (name : String) : Prop :=
  it.vars.isDeclared name = true ∨ ∃ line ∈ earlier, line.output = some name

/-- The keywords that are known behind some lines: those known before, and those of the libraries
that the lines import. -/
def Calls (it : Interpreter n) (earlier : List Line) (name : String) : Prop :=
  it.registry.contains name = true ∨ ∃ line ∈ earlier, ∃ key ∈ line.imports, ∃ library,
    it.registry.libraries.get? key = some library ∧ name ∈ Entries.keys library.keywords

/-- The rules by which a line of a text may stand behind some lines. -/
inductive Admits (it : Interpreter n) (earlier : List Line) (number : LineNumber)
    (text : String) : Prop where
  | blank (hblank : Text.isBlankText (Text.dropReturns text) = true)
  | comment {line : Line} (hsaid : Line.SaidBy text number line) (hcomment : line.isComment = true)
  /-- An import of one library, and that is catalogued. -/
  | importing {line : Line} {library : String} (hsaid : Line.SaidBy text number line)
      (hreads : Line.ReadsKnown (it.Declares earlier) line.items)
      (hkey : line.keyword = some Keyword.importName) (hargs : line.args = [library])
      (hlibrary : it.registry.hasLibrary library = true)
  | calling {line : Line} {keyword : String} (hsaid : Line.SaidBy text number line)
      (hreads : Line.ReadsKnown (it.Declares earlier) line.items)
      (hkey : line.keyword = some keyword) (hother : keyword ≠ Keyword.importName)
      (hknown : it.Calls earlier keyword ∨ it.Declares earlier keyword)

/-- The rules by which a line of a text may not stand behind some lines. Each rule but the first
takes for granted that none before it applies. -/
inductive Refuses (it : Interpreter n) (earlier : List Line) (number : LineNumber)
    (text : String) : LoadCause → Prop where
  | unreadable {cause : LoadCause} (hblank : Text.isBlankText (Text.dropReturns text) = false)
      (hread : Line.read (Text.dropReturns text) number = .error ⟨number, cause⟩) :
      Refuses it earlier number text cause
  | undefinedVariable {line : Line} {name : String} (hsaid : Line.SaidBy text number line)
      (hname : Line.FirstUnknown (it.Declares earlier) line.items name) :
      Refuses it earlier number text (.undefinedVariable name)
  | malformedImport {line : Line} (hsaid : Line.SaidBy text number line)
      (hreads : Line.ReadsKnown (it.Declares earlier) line.items)
      (hkey : line.keyword = some Keyword.importName) (hargs : line.args.length ≠ 1) :
      Refuses it earlier number text (.malformedImport line.args.length)
  | unknownLibrary {line : Line} {library : String} (hsaid : Line.SaidBy text number line)
      (hreads : Line.ReadsKnown (it.Declares earlier) line.items)
      (hkey : line.keyword = some Keyword.importName) (hargs : line.args = [library])
      (hlibrary : it.registry.hasLibrary library = false) :
      Refuses it earlier number text (.unknownLibrary library)
  | unknownKeyword {line : Line} {keyword : String} (hsaid : Line.SaidBy text number line)
      (hreads : Line.ReadsKnown (it.Declares earlier) line.items)
      (hkey : line.keyword = some keyword) (hother : keyword ≠ Keyword.importName)
      (hcalls : ¬it.Calls earlier keyword) (hdeclares : ¬it.Declares earlier keyword) :
      Refuses it earlier number text (.unknownKeyword keyword)

/-- For every line there is a rule. -/
theorem admits_or_refuses (it : Interpreter n) (earlier : List Line) (number : LineNumber)
    (text : String) :
    it.Admits earlier number text ∨ ∃ cause, it.Refuses earlier number text cause := by
  cases hblank : Text.isBlankText (Text.dropReturns text) with
  | true => exact Or.inl (.blank hblank)
  | false =>
    cases hread : Line.read (Text.dropReturns text) number with
    | error fault =>
      obtain ⟨at_, cause⟩ := fault
      have hnumber : at_ = number := Line.line_of_read_error hread
      rw [hnumber] at hread
      exact Or.inr ⟨cause, .unreadable hblank hread⟩
    | ok line =>
      have hsaid : Line.SaidBy text number line := ⟨hblank, hread⟩
      cases hcomment : line.isComment with
      | true => exact Or.inl (.comment hsaid hcomment)
      | false =>
        rcases Line.readsKnown_or_firstUnknown (it.Declares earlier) line.items with
          hreads | ⟨name, hname⟩
        · -- a line that is neither blank nor a comment has a keyword
          obtain ⟨keyword, words, hitems⟩ :=
            List.exists_cons_of_ne_nil (Line.items_ne_nil_of_read hblank hread hcomment)
          have hkey : line.keyword = some keyword := by rw [Line.keyword, hitems, List.head?_cons]
          by_cases himport : keyword = Keyword.importName
          · rw [himport] at hkey
            by_cases hargs : line.args.length = 1
            · obtain ⟨library, hlibrary⟩ := List.length_eq_one_iff.1 hargs
              cases hfound : it.registry.hasLibrary library with
              | true => exact Or.inl (.importing hsaid hreads hkey hlibrary hfound)
              | false => exact Or.inr ⟨_, .unknownLibrary hsaid hreads hkey hlibrary hfound⟩
            · exact Or.inr ⟨_, .malformedImport hsaid hreads hkey hargs⟩
          · by_cases hknown : it.Calls earlier keyword ∨ it.Declares earlier keyword
            · exact Or.inl (.calling hsaid hreads hkey himport hknown)
            · obtain ⟨hcalls, hdeclares⟩ := not_or.1 hknown
              exact Or.inr ⟨_, .unknownKeyword hsaid hreads hkey himport hcalls hdeclares⟩
        · exact Or.inr ⟨_, .undefinedVariable hsaid hname⟩

/-! ## What a state knows

`Knows` is the view of an interpreter that has loaded some lines: it knows what the text says is
known there. The loader is compared with the rules through this view only. -/

/-- An interpreter knows the names that are known to another one behind some lines. -/
structure Knows (it it' : Interpreter n) (earlier : List Line) : Prop where
  declares : ∀ name, it'.vars.isDeclared name = true ↔ it.Declares earlier name
  calls : ∀ name, it'.registry.contains name = true ↔ it.Calls earlier name
  libraries : it'.registry.libraries = it.registry.libraries

variable {it it' : Interpreter n} {earlier : List Line} {line : Line}

/-- Imports leave the catalogue alone, and make the keywords of the named libraries callable. -/
theorem importAll_view {r r' : Registry n} {names : List String}
    (h : r.importAll names = some r') :
    r'.libraries = r.libraries ∧ ∀ k, r'.contains k = true ↔
      r.contains k = true ∨ ∃ key ∈ names, ∃ library,
        r.libraries.get? key = some library ∧ k ∈ Entries.keys library.keywords := by
  unfold Registry.importAll at h
  induction names generalizing r with
  | nil =>
    cases h
    exact ⟨rfl, fun k => ⟨Or.inl, fun hk => hk.resolve_right fun ⟨_, hkey, _⟩ =>
      absurd hkey List.not_mem_nil⟩⟩
  | cons name names ih =>
    rw [List.foldlM_cons] at h
    obtain ⟨next, hnext, hrest⟩ := Option.bind_eq_some_iff.1 h
    obtain ⟨⟨r₁, count⟩, himport, rfl⟩ := Option.map_eq_some_iff.1 hnext
    obtain ⟨library, hlibrary, heq⟩ := Option.map_eq_some_iff.1 himport
    obtain ⟨hlibraries, hcontains⟩ := ih hrest
    cases heq
    refine ⟨hlibraries, fun k => ?_⟩
    -- the first import adds the keywords of its library to those that were callable
    have hfirst : (⟨r.keywords.insertAll library.keywords, r.libraries⟩ : Registry n).contains k
        = true ↔ k ∈ Entries.keys library.keywords ∨ r.contains k = true :=
      Table.contains_insertAll_iff
    rw [hcontains, hfirst]
    constructor
    · rintro ((hk | hk) | ⟨key, hkey, hfound⟩)
      · exact Or.inr ⟨name, List.mem_cons_self, library, hlibrary, hk⟩
      · exact Or.inl hk
      · exact Or.inr ⟨key, List.mem_cons_of_mem name hkey, hfound⟩
    · rintro (hk | ⟨key, hkey, found, hfound, hk⟩)
      · exact Or.inl (Or.inr hk)
      · rcases List.mem_cons.1 hkey with rfl | hkey
        · cases hlibrary.symm.trans hfound
          exact Or.inl (Or.inl hk)
        · exact Or.inr ⟨key, hkey, found, hfound, hk⟩

/-- Lines that have been loaded make known what they say. -/
theorem Extends.knows (h : Extends it it' earlier) : Knows it it' earlier := by
  obtain ⟨hlibraries, hcontains⟩ := importAll_view h.registry
  refine ⟨fun name => ?_, fun name => ?_, hlibraries⟩
  · rw [Variables.isDeclared, Table.contains, h.slots, Option.isSome_or, Bool.or_eq_true]
    refine or_congr Iff.rfl ?_
    by_cases hname : some name ∈ earlier.map Line.output
    · rw [if_pos hname]
      exact ⟨fun _ => List.mem_map.1 hname, fun _ => rfl⟩
    · rw [if_neg hname]
      exact ⟨fun habs => absurd habs (by simp), fun hline => absurd (List.mem_map.2 hline) hname⟩
  · rw [hcontains]
    refine or_congr Iff.rfl ⟨?_, ?_⟩
    · rintro ⟨key, hkey, hfound⟩
      obtain ⟨line, hline, hkey⟩ := List.mem_flatMap.1 hkey
      exact ⟨line, hline, key, hkey, hfound⟩
    · rintro ⟨line, hline, key, hkey, hfound⟩
      exact ⟨key, List.mem_flatMap.2 ⟨line, hline, hkey⟩, hfound⟩

theorem Knows.hasLibrary (h : Knows it it' earlier) (name : String) :
    it'.registry.hasLibrary name = it.registry.hasLibrary name := by
  rw [Registry.hasLibrary, Registry.hasLibrary, h.libraries]

theorem Knows.counted (h : Knows it it' earlier) (count : LineNumber) :
    Knows it { it' with lineCount := count } earlier := ⟨h.declares, h.calls, h.libraries⟩

/-! ## The loader follows the rules -/

theorem undeclared?_eq_none {words : List String} {known : String → Prop}
    (hknown : ∀ name, it.vars.isDeclared name = true ↔ known name)
    (h : Line.ReadsKnown known words) :
    (words.filterMap Token.variableName?).find? (fun name => !it.vars.isDeclared name) = none := by
  refine List.find?_eq_none.2 fun name hname => ?_
  obtain ⟨word, hword, hclass⟩ := List.mem_filterMap.1 hname
  unfold Token.variableName? at hclass
  split at hclass
  · next name' attr hvariable =>
    cases hclass
    have hrefers := Token.classify_eq_variable_iff.1 hvariable
    simp [(hknown name).2 (h word hword name attr hrefers)]
  · exact absurd hclass (by simp)

theorem Knows.undeclared?_eq_none (h : Knows it it' earlier)
    (hreads : Line.ReadsKnown (it.Declares earlier) line.items) :
    it'.undeclared? line = none :=
  Interpreter.undeclared?_eq_none h.declares hreads

theorem Knows.undeclared?_eq_some (h : Knows it it' earlier) {name : String}
    (hname : Line.FirstUnknown (it.Declares earlier) line.items name) :
    it'.undeclared? line = some name := by
  obtain ⟨before, word, after, attr, hitems, hbefore, hrefers, hunknown⟩ := hname
  have hread : Token.variableName? word = some name := by
    unfold Token.variableName?
    rw [Token.classify_eq_variable_iff.2 hrefers]
  have hundeclared : (!it'.vars.isDeclared name) = true := by
    cases hdeclared : it'.vars.isDeclared name with
    | true => exact absurd ((h.declares name).1 hdeclared) hunknown
    | false => rfl
  rw [undeclared?, Line.references, hitems, List.filterMap_append, List.find?_append,
    Interpreter.undeclared?_eq_none h.declares hbefore, Option.none_or,
    List.filterMap_cons_some hread]
  exact List.find?_cons_of_pos hundeclared

theorem resolveKeyword_of_import (hkey : line.keyword = some Keyword.importName) :
    it.resolveKeyword line
      = match line.args with
        | [library] =>
          match it.registry.importLibrary library with
          | some (registry, _) => .ok registry
          | none => .error (.unknownLibrary library)
        | args => .error (.malformedImport args.length) := by
  have hname : line.keyword.getD "" = Keyword.importName := by rw [hkey, Option.getD_some]
  exact if_pos hname

theorem resolveKeyword_of_other {keyword : String} (hkey : line.keyword = some keyword)
    (hother : keyword ≠ Keyword.importName) :
    it.resolveKeyword line
      = if it.registry.contains keyword || it.vars.isDeclared keyword then .ok it.registry
        else .error (.unknownKeyword keyword) := by
  unfold resolveKeyword
  rw [hkey, Option.getD_some, if_neg hother]

theorem importLibrary_of_hasLibrary {r : Registry n} {name : String}
    (h : r.hasLibrary name = true) : ∃ r' count, r.importLibrary name = some (r', count) := by
  obtain ⟨library, hlibrary⟩ := Option.isSome_iff_exists.1 h
  exact ⟨_, _, by rw [Registry.importLibrary, hlibrary, Option.map_some]⟩

theorem importLibrary_eq_none {r : Registry n} {name : String}
    (h : r.hasLibrary name = false) : r.importLibrary name = none := by
  have hnone : r.libraries.get? name = none := by
    simpa [Registry.hasLibrary, Table.contains] using h
  rw [Registry.importLibrary, hnone, Option.map_none]

/-- Loading a line that says something is accepting what it says. -/
theorem loadLine_of_saidBy {text : String} {number : LineNumber}
    (h : Line.SaidBy text number line) :
    (it.loadLine text number).2
      = match accept { it with lineCount := max it.lineCount number } line with
        | .error cause => .error ⟨number, cause⟩
        | .ok _ => .ok (some line) := by
  obtain ⟨hblank, hread⟩ := h
  unfold loadLine
  dsimp only
  rw [if_neg (by simp [hblank]), hread]
  dsimp only
  cases accept { it with lineCount := max it.lineCount number } line with
  | error cause => rfl
  | ok loaded => rfl

theorem accept_of_ok {registry : Registry n} (hundeclared : it.undeclared? line = none)
    (hresolve : it.resolveKeyword line = .ok registry) : ∃ it', it.accept line = .ok it' := by
  unfold accept
  split
  · exact ⟨_, rfl⟩
  · rw [hundeclared]
    dsimp only
    rw [hresolve]
    exact ⟨_, rfl⟩

theorem accept_of_error {cause : LoadCause} (hcomment : line.isComment = false)
    (h : (∃ name, it.undeclared? line = some name ∧ cause = .undefinedVariable name) ∨
      (it.undeclared? line = none ∧ it.resolveKeyword line = .error cause)) :
    it.accept line = .error cause := by
  unfold accept
  rw [if_neg (by simp [hcomment])]
  rcases h with ⟨name, hundeclared, rfl⟩ | ⟨hundeclared, hresolve⟩
  · rw [hundeclared]
  · rw [hundeclared]
    dsimp only
    rw [hresolve]

/-- An interpreter that knows what is known behind some lines loads the lines that may stand
there. -/
theorem Knows.loadLine_of_admits (h : Knows it it' earlier) {number : LineNumber} {text : String}
    (hadmits : it.Admits earlier number text) :
    ∃ loaded?, (it'.loadLine text number).2 = .ok loaded? := by
  have hknows : Knows it { it' with lineCount := max it'.lineCount number } earlier := h.counted _
  -- a line that says something is loaded if it is accepted
  have hloads {line : Line} (hsaid : Line.SaidBy text number line)
      (hacc : ∃ loaded, accept { it' with lineCount := max it'.lineCount number } line
        = .ok loaded) : ∃ loaded?, (it'.loadLine text number).2 = .ok loaded? := by
    obtain ⟨loaded, hloaded⟩ := hacc
    rw [loadLine_of_saidBy hsaid, hloaded]
    exact ⟨some line, rfl⟩
  cases hadmits with
  | blank hblank =>
    unfold loadLine
    dsimp only
    rw [if_pos hblank]
    exact ⟨none, rfl⟩
  | comment hsaid hcomment =>
    apply hloads hsaid
    rw [accept, if_pos hcomment]
    exact ⟨_, rfl⟩
  | @importing line library hsaid hreads hkey hargs hlibrary =>
    apply hloads hsaid
    rw [← hknows.hasLibrary] at hlibrary
    obtain ⟨registry, count, himport⟩ := importLibrary_of_hasLibrary hlibrary
    have hresolve : resolveKeyword { it' with lineCount := max it'.lineCount number } line
        = .ok registry := by
      rw [resolveKeyword_of_import hkey, hargs]
      dsimp only
      rw [himport]
    exact accept_of_ok (hknows.undeclared?_eq_none hreads) hresolve
  | @calling line keyword hsaid hreads hkey hother hknown =>
    apply hloads hsaid
    have hfound := hknown.imp (hknows.calls _).2 (hknows.declares _).2
    have hresolve : resolveKeyword { it' with lineCount := max it'.lineCount number } line
        = .ok it'.registry := by
      rw [resolveKeyword_of_other hkey hother, if_pos (by simpa using hfound)]
    exact accept_of_ok (hknows.undeclared?_eq_none hreads) hresolve

/-- It refuses the lines that may not stand there, by the rule that counts. -/
theorem Knows.loadLine_of_refuses (h : Knows it it' earlier) {number : LineNumber} {text : String}
    {cause : LoadCause} (hrefuses : it.Refuses earlier number text cause) :
    (it'.loadLine text number).2 = .error ⟨number, cause⟩ := by
  have hknows : Knows it { it' with lineCount := max it'.lineCount number } earlier := h.counted _
  have hfaults {line : Line} {keyword : String} (hsaid : Line.SaidBy text number line)
      (hkey : line.keyword = some keyword)
      (hacc : line.isComment = false →
        accept { it' with lineCount := max it'.lineCount number } line = .error cause) :
      (it'.loadLine text number).2 = .error ⟨number, cause⟩ := by
    rw [loadLine_of_saidBy hsaid, hacc (Line.isComment_eq_false_of_keyword hkey)]
  cases hrefuses with
  | unreadable hblank hread =>
    unfold loadLine
    dsimp only
    rw [if_neg (by simp [hblank]), hread]
  | undefinedVariable hsaid hname =>
    obtain ⟨keyword, hkey⟩ := hname.exists_keyword
    exact hfaults hsaid hkey fun hcomment =>
      accept_of_error hcomment (Or.inl ⟨_, hknows.undeclared?_eq_some hname, rfl⟩)
  | malformedImport hsaid hreads hkey hargs =>
    refine hfaults hsaid hkey fun hcomment =>
      accept_of_error hcomment (Or.inr ⟨hknows.undeclared?_eq_none hreads, ?_⟩)
    rw [resolveKeyword_of_import hkey]
    split
    · next library hone =>
      rw [hone] at hargs
      exact absurd rfl hargs
    · rfl
  | unknownLibrary hsaid hreads hkey hargs hlibrary =>
    refine hfaults hsaid hkey fun hcomment =>
      accept_of_error hcomment (Or.inr ⟨hknows.undeclared?_eq_none hreads, ?_⟩)
    rw [← hknows.hasLibrary] at hlibrary
    rw [resolveKeyword_of_import hkey, hargs]
    dsimp only
    rw [importLibrary_eq_none hlibrary]
  | unknownKeyword hsaid hreads hkey hother hcalls hdeclares =>
    refine hfaults hsaid hkey fun hcomment =>
      accept_of_error hcomment (Or.inr ⟨hknows.undeclared?_eq_none hreads, ?_⟩)
    rw [resolveKeyword_of_other hkey hother, if_neg]
    rw [Bool.or_eq_true]
    exact fun hfound => hfound.elim (fun hc => hcalls ((hknows.calls _).1 hc))
      fun hd => hdeclares ((hknows.declares _).1 hd)

theorem Knows.not_admits_of_refuses (h : Knows it it' earlier) {number : LineNumber}
    {text : String} {cause : LoadCause} (hrefuses : it.Refuses earlier number text cause) :
    ¬it.Admits earlier number text := by
  intro hadmits
  obtain ⟨loaded?, hok⟩ := h.loadLine_of_admits hadmits
  rw [h.loadLine_of_refuses hrefuses] at hok
  exact absurd hok (by simp)

/-! ## Scripts -/

section

variable {texts : List String} {k : Nat} {text : String}

/-- Of the lines that have all been loaded, each may stand at its place. -/
theorem admits_of_loadLines (h : it.loadLines texts = (it', .ok ()))
    (hk : texts[k]? = some text) :
    it.Admits (Line.ofTexts it.lineCount (texts.take k)) (LineNumber.after it.lineCount (k + 1))
      text := by
  obtain ⟨hsplit, hlength⟩ := splits_of_getElem? hk
  rw [hsplit] at h
  obtain ⟨it₁, it₂, loaded?, hbefore, hline⟩ := loadLine_of_append h
  rw [hlength] at hline
  have hknows := (loadLines_extends hbefore).1.knows
  rcases admits_or_refuses it _ _ text with hadmits | ⟨cause, hrefuses⟩
  · exact hadmits
  · -- the line would not have been loaded
    have hfault := hknows.loadLine_of_refuses hrefuses
    rw [hline] at hfault
    exact absurd hfault (by simp)

/-- Of the lines that have not all been loaded, the first that could not be may not stand at its
place, and the fault names the rule. -/
theorem refuses_of_loadLines {fault : LoadFault} (h : it.loadLines texts = (it', .error fault)) :
    ∃ k text, texts[k]? = some text ∧ (it.loadLines (texts.take k)).2 = .ok () ∧
      fault.line = LineNumber.after it.lineCount (k + 1) ∧
      it.Refuses (Line.ofTexts it.lineCount (texts.take k))
        (LineNumber.after it.lineCount (k + 1)) text fault.cause := by
  obtain ⟨⟨before, bad, rest, htexts, hbefore, hbad, hnumber⟩, _, _⟩ := exists_first_fault h
  have htake : texts.take before.length = before := by rw [htexts, List.take_left]
  have hloaded : it.loadLines before = ((it.loadLines before).1, .ok ()) := Prod.ext rfl hbefore
  have hknows := (loadLines_extends hloaded).1.knows
  refine ⟨before.length, bad, ?_, ?_, hnumber, ?_⟩
  · rw [htexts, List.getElem?_append_right (Nat.le_refl _), Nat.sub_self]
    rfl
  · rw [htake]
    exact hbefore
  · rw [htake]
    rcases admits_or_refuses it (Line.ofTexts it.lineCount before)
      (LineNumber.after it.lineCount (before.length + 1)) bad with hadmits | ⟨cause, hrefuses⟩
    · obtain ⟨loaded?, hok⟩ := hknows.loadLine_of_admits hadmits
      rw [hok] at hbad
      exact absurd hbad (by simp)
    · have hcause := hbad.symm.trans (hknows.loadLine_of_refuses hrefuses)
      cases hcause
      exact hrefuses

/-- A line that may not stand at its place ends the loading there, if it is come to. -/
theorem loadLines_of_refuses {cause : LoadCause} (hk : texts[k]? = some text)
    (hbefore : (it.loadLines (texts.take k)).2 = .ok ())
    (hrefuses : it.Refuses (Line.ofTexts it.lineCount (texts.take k))
      (LineNumber.after it.lineCount (k + 1)) text cause) :
    (it.loadLines texts).2 = .error ⟨LineNumber.after it.lineCount (k + 1), cause⟩ := by
  obtain ⟨hsplit, hlength⟩ := splits_of_getElem? hk
  have hloaded : it.loadLines (texts.take k) = ((it.loadLines (texts.take k)).1, .ok ()) :=
    Prod.ext rfl hbefore
  obtain ⟨hext, hcount⟩ := loadLines_extends hloaded
  -- the line gets the number of its place
  have hnumber : (it.loadLines (texts.take k)).1.lineCount + 1
      = LineNumber.after it.lineCount (k + 1) := by
    rw [hcount, hlength, LineNumber.add_one_eq_after,
      LineNumber.after_advance it.lineCount k Nat.one_pos]
  have hfault := hext.knows.loadLine_of_refuses hrefuses
  have hwhole : (it.loadLines texts).2
      = ((it.loadLines (texts.take k)).1.loadLines (text :: texts.drop (k + 1))).2 := by
    rw [hsplit, loadLines_append, ← hsplit, hloaded]
  rw [hwhole, loadLines_cons, hnumber]
  cases hline : (it.loadLines (texts.take k)).1.loadLine text
      (LineNumber.after it.lineCount (k + 1)) with
  | mk it₁ result =>
    rw [hline] at hfault
    cases hfault
    rfl

theorem getElem?_take_eq_some {j : Nat} (h : (texts.take k)[j]? = some text) :
    j < k ∧ texts[j]? = some text ∧ (texts.take k).take j = texts.take j := by
  rw [List.getElem?_take] at h
  split at h
  · next hj => exact ⟨hj, h, by rw [List.take_take, Nat.min_eq_left (Nat.le_of_lt hj)]⟩
  · exact absurd h (by simp)

theorem loadLines_ok_iff :
    (it.loadLines texts).2 = .ok () ↔ ∀ k text, texts[k]? = some text →
      it.Admits (Line.ofTexts it.lineCount (texts.take k))
        (LineNumber.after it.lineCount (k + 1)) text := by
  constructor
  · intro hok k text hk
    exact admits_of_loadLines (Prod.ext rfl hok) hk
  · intro hadmits
    cases hresult : (it.loadLines texts).2 with
    | ok done => rfl
    | error fault =>
      obtain ⟨k, bad, hk, hbefore, _, hrefuses⟩ := refuses_of_loadLines (Prod.ext rfl hresult)
      have hloaded : it.loadLines (texts.take k) = ((it.loadLines (texts.take k)).1, .ok ()) :=
        Prod.ext rfl hbefore
      have hknows := (loadLines_extends hloaded).1.knows
      exact absurd (hadmits k bad hk) (hknows.not_admits_of_refuses hrefuses)

theorem loadLines_error_iff {fault : LoadFault} :
    (it.loadLines texts).2 = .error fault ↔ ∃ k text, texts[k]? = some text ∧
      (∀ j before, j < k → texts[j]? = some before →
        it.Admits (Line.ofTexts it.lineCount (texts.take j))
          (LineNumber.after it.lineCount (j + 1)) before) ∧
      fault.line = LineNumber.after it.lineCount (k + 1) ∧
      it.Refuses (Line.ofTexts it.lineCount (texts.take k))
        (LineNumber.after it.lineCount (k + 1)) text fault.cause := by
  constructor
  · intro hfault
    obtain ⟨k, bad, hk, hbefore, hnumber, hrefuses⟩ := refuses_of_loadLines (Prod.ext rfl hfault)
    refine ⟨k, bad, hk, fun j before hj hget => ?_, hnumber, hrefuses⟩
    have hin : (texts.take k)[j]? = some before := by rw [List.getElem?_take, if_pos hj, hget]
    rw [← (getElem?_take_eq_some hin).2.2]
    exact loadLines_ok_iff.1 hbefore j before hin
  · rintro ⟨k, bad, hk, hbefore, hnumber, hrefuses⟩
    have hloaded : (it.loadLines (texts.take k)).2 = .ok () := by
      refine loadLines_ok_iff.2 fun j before hin => ?_
      obtain ⟨hj, hget, htake⟩ := getElem?_take_eq_some hin
      rw [htake]
      exact hbefore j before hj hget
    rw [loadLines_of_refuses hk hloaded hrefuses, ← hnumber]

end

/-- **Scripts in scope.** A text is loaded if and only if each of its lines may stand at its place:
it is blank, or a comment, or it can be read, reads variables that were known before or are bound by
an earlier line, and either imports one catalogued library or calls what was known before, what an
earlier line imports, or what an earlier line binds. Otherwise the fault is that of the first line
that may not stand at its place, under the number of that place and by the first rule that it
breaks. -/
theorem load_accepts_scoped (it : Interpreter n) (text : String) :
    let texts := Text.lines text
    let earlier := fun k => Line.ofTexts it.lineCount (texts.take k)
    let number := fun k => LineNumber.after it.lineCount (k + 1)
    ((it.load text).2 = .ok () ↔
      ∀ k line, texts[k]? = some line → it.Admits (earlier k) (number k) line) ∧
    ∀ fault, (it.load text).2 = .error fault ↔
      ∃ k line, texts[k]? = some line ∧
        (∀ j before, j < k → texts[j]? = some before →
          it.Admits (earlier j) (number j) before) ∧
        fault.line = number k ∧ it.Refuses (earlier k) (number k) line fault.cause := by
  intro texts earlier number
  rw [load_answer]
  exact ⟨loadLines_ok_iff, fun fault => loadLines_error_iff⟩

/-- What a line binds is not known to the line itself, but to the next one. -/
example :
    ((withRegistry .new : Interpreter Id).load "check $v a as v").2.isOk = false ∧
      ((withRegistry .new : Interpreter Id).load "check a a as v\nv $v").2.isOk = true := by
  decide +kernel

end Interpreter

end KeywordRunner.Script
