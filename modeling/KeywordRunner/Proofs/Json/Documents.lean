import KeywordRunner.Proofs.Json.Grammar

/-!
# Proofs.Json.Documents — records however they are written

A record is an object, and an object can be written in many ways: its members in any order, each
name in any spelling, blanks between the tokens, and members that nothing knows. `ObjectText` says
which members a text has, `Gives` and `Omits` what they say of a name, and `readRecord_text` that a
record is read to what its known members say, one after the other and in whatever order.

* **`readRecord_text`** — a record is read from every text of its members.
* **`objectText_pretty`** — the text over several lines that is written for an object is one of its
  texts.
-/

namespace KeywordRunner.Json

variable {ε α σ : Type} {cs rest text blank : List Char} {members : List (String × List Char)}
  {name : String} {P : List Char → Prop}

/-! ## Objects -/

/-- A member as text: a spelling of its name, a colon and the text of its value, with blanks around
each. -/
def MemberText (m : String × List Char) (text : List Char) : Prop :=
  ∃ before spelling after gap behind, IsBlank before ∧ StringText m.1 spelling ∧ IsBlank after ∧
    IsBlank gap ∧ IsBlank behind ∧
    text = before ++ (spelling ++ (after ++ ':' :: (gap ++ (m.2 ++ behind))))

/-- A text of the object that has these members in this order, each with the text of its value. -/
inductive ObjectText : List (String × List Char) → List Char → Prop where
  | empty {blank : List Char} (h : IsBlank blank) : ObjectText [] ('\x7b' :: (blank ++ ['\x7d']))
  | members {first : (String × List Char) × List Char}
      {others : List ((String × List Char) × List Char)}
      (h : ∀ x ∈ first :: others, MemberText x.1 x.2) :
      ObjectText ((first :: others).map (·.1))
        ('\x7b' :: (first.2 ++ ((others.flatMap fun x => ',' :: x.2) ++ ['\x7d'])))

/-- Just one member has the name, and the text of its value is as required. -/
def Gives (members : List (String × List Char)) (name : String) (P : List Char → Prop) : Prop :=
  ∃ text, members.filter (·.1 = name) = [(name, text)] ∧ P text

/-- No member has the name. -/
def Omits (members : List (String × List Char)) (name : String) : Prop :=
  ∀ m ∈ members, m.1 ≠ name

theorem Gives.imp {Q : List Char → Prop} (h : Gives members name P)
    (hPQ : ∀ text, P text → Q text) : Gives members name Q := by
  obtain ⟨text, hfilter, htext⟩ := h
  exact ⟨text, hfilter, hPQ text htext⟩

theorem Gives.mem (h : Gives members name P) : name ∈ members.map (·.1) := by
  obtain ⟨text, hfilter, _⟩ := h
  have hmem : (name, text) ∈ members.filter (·.1 = name) := hfilter ▸ List.mem_singleton_self _
  exact List.mem_map.2 ⟨_, List.mem_of_mem_filter hmem, rfl⟩

theorem Omits.not_mem (h : Omits members name) : name ∉ members.map (·.1) := by
  intro hmem
  obtain ⟨m, hm, hname⟩ := List.mem_map.1 hmem
  exact h m hm hname

/-- What members say of a name that is to be given or to be left out. -/
def SaysIf (members : List (String × List Char)) (name : String) (given : Bool)
    (P : List Char → Prop) : Prop :=
  if given = true then Gives members name P else Omits members name

theorem SaysIf.omits_or_gives {given : Bool} (h : SaysIf members name given P) :
    Omits members name ∨ Gives members name P := by
  unfold SaysIf at h
  split at h
  · exact Or.inr h
  · exact Or.inl h

theorem SaysIf.mem_iff {given : Bool} (h : SaysIf members name given P) :
    name ∈ members.map (·.1) ↔ given = true := by
  unfold SaysIf at h
  split at h
  · next hgiven => exact iff_of_true h.mem hgiven
  · next hgiven => exact iff_of_false h.not_mem hgiven

/-- The member that gives a name is the first one that has it. -/
theorem Gives.split {before after : List (String × List Char)} {m : String × List Char}
    (h : Gives (before ++ m :: after) m.1 P) : P m.2 ∧ m.1 ∉ before.map (·.1) := by
  obtain ⟨text, hfilter, htext⟩ := h
  rw [List.filter_append, List.filter_cons_of_pos (by simp)] at hfilter
  rcases List.append_eq_singleton_iff.1 hfilter with ⟨hbefore, hm⟩ | ⟨_, hm⟩
  · have hvalue : m = (m.1, text) := (List.cons.inj hm).1
    refine ⟨by rw [hvalue]; exact htext, fun hmem => ?_⟩
    obtain ⟨x, hx, hname⟩ := List.mem_map.1 hmem
    exact absurd (List.filter_eq_nil_iff.1 hbefore x hx) (by simp [hname])
  · exact absurd hm (by simp)

/-! ## Reading the members -/

variable {fields : List (Field ε σ)} {depth : Nat} {f : Field ε σ} {m : String × List Char}
  {d : Draft σ}

theorem ends_colon (rest : List Char) : Ends (':' :: rest) := ends_cons (by decide)

theorem readField_known {update : σ → σ} (hm : MemberText m text)
    (hfind : fields.find? (fun f => f.name == m.1) = some f) (hnew : m.1 ∉ d.met)
    (hread : Reads (f.read depth) m.2 update) (hends : Ends rest) :
    ∃ tail, readField fields depth d (text ++ rest)
      = .ok (⟨m.1 :: d.met, update d.value⟩, tail) ∧ skipSpace tail = skipSpace rest := by
  obtain ⟨before, spelling, after, gap, behind, hbefore, hname, hafter, hgap, hbehind, rfl⟩ := hm
  have hmet : d.met.contains m.1 = false := by simpa using hnew
  refine ⟨behind ++ rest, ?_, skipSpace_blank hbehind rest⟩
  simp only [List.append_assoc, List.cons_append]
  unfold readField
  rw [reads_string hname before _ hbefore (ends_blank hafter (ends_colon _)), ok_bind]
  dsimp only
  rw [hfind]
  dsimp only
  rw [hmet, if_neg Bool.false_ne_true, skipSpace_blank hafter, skipSpace_of_ne rfl]
  show ((f.read depth (gap ++ (m.2 ++ (behind ++ rest)))).map _) = _
  rw [hread gap _ hgap (ends_blank hbehind hends)]
  rfl

theorem readField_unknown (hm : MemberText m text)
    (hfind : fields.find? (fun f => f.name == m.1) = none) (hvalue : IsValue m.2)
    (hends : Ends rest) :
    ∃ tail, readField fields depth d (text ++ rest) = .ok (d, tail) ∧
      skipSpace tail = skipSpace rest := by
  obtain ⟨before, spelling, after, gap, behind, hbefore, hname, hafter, hgap, hbehind, rfl⟩ := hm
  refine ⟨behind ++ rest, ?_, skipSpace_blank hbehind rest⟩
  simp only [List.append_assoc, List.cons_append]
  unfold readField
  rw [reads_string hname before _ hbefore (ends_blank hafter (ends_colon _)), ok_bind]
  dsimp only
  rw [hfind]
  dsimp only
  rw [skipSpace_blank hafter, skipSpace_of_ne rfl]
  show ((skipValue (gap ++ (m.2 ++ (behind ++ rest)))).map _) = _
  rw [reads_skipValue hvalue gap _ hgap (ends_blank hbehind hends)]
  rfl

/-! ## Records -/

/-- The names in question among those of members, the latest first. -/
def metOf (known : List String) (members : List (String × List Char)) : List String :=
  ((members.map (·.1)).filter (· ∈ known)).reverse

theorem mem_metOf {known : List String} :
    name ∈ metOf known members ↔ name ∈ known ∧ name ∈ members.map (·.1) := by
  rw [metOf, List.mem_reverse, List.mem_filter, decide_eq_true_iff, and_comm]

theorem SaysIf.mem_metOf {given : Bool} {known : List String} (h : SaysIf members name given P)
    (hknown : name ∈ known) : name ∈ metOf known members ↔ given = true := by
  rw [Json.mem_metOf, h.mem_iff]
  exact and_iff_right hknown

/-- What a record has come to after one member more. -/
def Draft.meet (known : List String) (value : List String → σ) (d : Draft σ)
    (m : String × List Char) : Draft σ :=
  if m.1 ∈ known then ⟨m.1 :: d.met, value (m.1 :: d.met)⟩ else d

theorem foldl_meet (known : List String) (value : List String → σ)
    (members : List (String × List Char)) :
    members.foldl (Draft.meet known value) ⟨[], value []⟩
      = ⟨metOf known members, value (metOf known members)⟩ := by
  induction members using List.reverseRecOn with
  | nil => rfl
  | append_singleton members m ih =>
    rw [List.foldl_append, ih, List.foldl_cons, List.foldl_nil, Draft.meet]
    unfold metOf
    rw [List.map_append, List.filter_append, List.reverse_append, List.map_singleton]
    by_cases hknown : m.1 ∈ known
    · rw [if_pos hknown, List.filter_cons_of_pos (by simpa using hknown)]
      rfl
    · rw [if_neg hknown, List.filter_cons_of_neg (by simpa using hknown)]
      rfl

/-- Members leave a field out, or give it once with a text that it reads. `value` says what the
record is when these names have been met: the update of the field leads from one of its values to
the next. -/
def Suits (members : List (String × List Char)) (value : List String → σ) (depth : Nat)
    (f : Field ε σ) : Prop :=
  Omits members f.name ∨ Gives members f.name fun text =>
    ∃ update, Reads (f.read depth) text update ∧ ∀ met, update (value met) = value (f.name :: met)

theorem readContainer_blank {close : Char} {item : σ → JsonReader ε σ} {s : σ}
    (h : IsBlank blank) (cs : List Char) :
    readContainer close item s (blank ++ cs) = readContainer close item s cs := by
  unfold readContainer
  rw [skipSpace_blank h]

theorem readRecord_brace (fields : List (Field ε σ)) (initial : σ) (depth : Nat)
    (h : IsBlank blank) (cs : List Char) :
    readRecord fields initial (depth + 1) (blank ++ '\x7b' :: cs)
      = (readContainer '\x7d' (readField fields depth) ⟨[], initial⟩ cs).map
          fun x => (x.1.value, x.2) := by
  rw [readRecord]
  dsimp only
  rw [skipSpace_blank h, skipSpace_of_ne rfl]
  rfl

section Members

variable {value : List String → σ}
  (hfields : ∀ f ∈ fields, Suits members value depth f)
  (hothers : ∀ m ∈ members, m.1 ∉ fields.map (·.name) → IsValue m.2)

include hfields hothers

/-- A member takes the record from what it is after the ones before it to the next. -/
theorem readField_text {before after : List (String × List Char)}
    (hsplit : members = before ++ m :: after) (hm : MemberText m text) (hends : Ends rest) :
    ∃ tail, readField fields depth (before.foldl (Draft.meet (fields.map (·.name)) value)
          ⟨[], value []⟩) (text ++ rest)
        = .ok ((before.foldl (Draft.meet (fields.map (·.name)) value) ⟨[], value []⟩).meet
            (fields.map (·.name)) value m, tail) ∧
      skipSpace tail = skipSpace rest := by
  have hmem : m ∈ members := hsplit ▸ List.mem_append_right _ List.mem_cons_self
  rw [foldl_meet]
  unfold Draft.meet
  cases hfind : fields.find? fun f => f.name == m.1 with
  | none =>
    have hunknown : m.1 ∉ fields.map (·.name) := by
      intro hname
      obtain ⟨f, hf, hname⟩ := List.mem_map.1 hname
      exact absurd (List.find?_eq_none.1 hfind f hf) (by simp [hname])
    rw [if_neg hunknown]
    exact readField_unknown hm hfind (hothers m hmem hunknown) hends
  | some f =>
    have hf : f ∈ fields := List.mem_of_find?_eq_some hfind
    have hname : f.name = m.1 := by simpa using List.find?_some hfind
    rw [if_pos (hname ▸ List.mem_map_of_mem hf)]
    rcases hfields f hf with homits | hgives
    · exact absurd hname.symm (homits m hmem)
    · rw [hname, hsplit] at hgives
      obtain ⟨⟨update, hread, hupdate⟩, hnew⟩ := hgives.split
      rw [← hupdate]
      exact readField_known hm hfind (fun hmet => hnew (mem_metOf.1 hmet).2) hread hends

theorem readMembers_text {others : List ((String × List Char) × List Char)}
    (hmembers : members = m :: others.map (·.1)) (hm : MemberText m text)
    (hlater : ∀ x ∈ others, MemberText x.1 x.2) (rest : List Char) :
    readContainer '\x7d' (readField fields depth) ⟨[], value []⟩
        (text ++ ((others.flatMap fun x => ',' :: x.2) ++ '\x7d' :: rest))
      = .ok (members.foldl (Draft.meet (fields.map (·.name)) value) ⟨[], value []⟩, rest) := by
  obtain ⟨before, spelling, after, gap, behind, hbefore, hname, hafter, hgap, hbehind, rfl⟩ := hm
  obtain ⟨cs, rfl⟩ : ∃ cs, spelling = '"' :: cs := by
    obtain ⟨pieces, _, rfl⟩ := hname
    exact ⟨_, rfl⟩
  -- without the blanks before it the first member starts with its quote
  let core := '"' :: (cs ++ (after ++ ':' :: (gap ++ (m.2 ++ behind))))
  have hcore : MemberText m core :=
    ⟨[], _, after, gap, behind, isBlank_nil, hname, hafter, hgap, hbehind, rfl⟩
  let next : Draft σ → (String × List Char) × List Char → Draft σ := fun d x =>
    d.meet (fields.map (·.name)) value x.1
  have hitem : ∀ before x after, (m, core) :: others = before ++ x :: after → ∀ rest, Ends rest →
      ∃ tail, readField fields depth (before.foldl next ⟨[], value []⟩) (x.2 ++ rest)
          = .ok (next (before.foldl next ⟨[], value []⟩) x, tail) ∧
        skipSpace tail = skipSpace rest := by
    intro before x after hsplit rest' hends
    have hx : MemberText x.1 x.2 := by
      have hmem : x ∈ (m, core) :: others := hsplit ▸ List.mem_append_right _ List.mem_cons_self
      rcases List.mem_cons.1 hmem with rfl | hmem
      · exact hcore
      · exact hlater x hmem
    have hmap := congrArg (List.map (·.1)) hsplit
    rw [List.map_append, List.map_cons, List.map_cons] at hmap
    have hfield := readField_text hfields hothers (hmembers.trans hmap) hx hends
    rwa [List.foldl_map] at hfield
  have hread := readContainer_write (fun x : (String × List Char) × List Char => x.2) next
    (by decide : '\x7d' ≠ ',') (by decide) ends_brace (m, core) others ⟨[], value []⟩ hitem
    ⟨_, _, rfl, by decide, by decide⟩ rest
  rw [List.append_assoc, readContainer_blank hbefore, hmembers, List.foldl_cons, List.foldl_map]
  exact hread

/-- **A record is read from every text of its members** when they suit its fields; other members may
hold any values. -/
theorem readRecord_text (h : ObjectText members text) :
    Reads (readRecord fields (value []) (depth + 1)) text
      (value (metOf (fields.map (·.name)) members)) := by
  intro blank rest hblank _
  cases h with
  | empty hinside =>
    rw [List.cons_append, List.append_assoc, readRecord_brace fields _ depth hblank,
      readContainer_blank hinside, List.singleton_append, readContainer_nil rfl]
    rfl
  | members htexts =>
    rw [List.cons_append, List.append_assoc, List.append_assoc, List.singleton_append,
      readRecord_brace fields _ depth hblank,
      readMembers_text hfields hothers rfl (htexts _ List.mem_cons_self)
        (fun x hx => htexts x (List.mem_cons_of_mem _ hx)) rest, foldl_meet]
    rfl

end Members

/-! ## Objects that are written -/

/-- A member without blanks. -/
theorem memberText_tight (m : String × List Char) : MemberText m (writeString m.1 ++ ':' :: m.2) :=
  ⟨[], writeString m.1, [], [], [], isBlank_nil, stringText_write m.1, isBlank_nil, isBlank_nil,
    isBlank_nil, by rw [List.append_nil]; rfl⟩

/-- Whatever the members are, some text has them. -/
theorem exists_objectText (members : List (String × List Char)) :
    ∃ text, ObjectText members text := by
  cases members with
  | nil => exact ⟨_, .empty isBlank_nil⟩
  | cons m ms =>
    let piece (m : String × List Char) : (String × List Char) × List Char :=
      (m, writeString m.1 ++ ':' :: m.2)
    have htexts : ∀ x ∈ piece m :: ms.map piece, MemberText x.1 x.2 := by
      rw [← List.map_cons, List.forall_mem_map]
      exact fun m _ => memberText_tight m
    have hmembers : (piece m :: ms.map piece).map (·.1) = m :: ms := by
      rw [List.map_cons, List.map_map]
      exact congrArg (m :: ·) (List.map_id ms)
    exact ⟨_, hmembers ▸ ObjectText.members htexts⟩

theorem isBlank_newline (level : Nat) : IsBlank (newline level) := by
  intro c hc
  rcases List.mem_cons.1 hc with rfl | hc
  · decide
  · rw [List.eq_of_mem_replicate hc]
    decide

theorem isBlank_space : IsBlank [' '] := by simp [IsBlank]

theorem memberText_pretty (level : Nat) (m : String × Json) {behind : List Char}
    (h : IsBlank behind) :
    MemberText (m.1, writePretty level m.2)
      (newline level ++ (writeString m.1 ++ (':' :: ' ' :: (writePretty level m.2 ++ behind)))) :=
  ⟨newline level, writeString m.1, [], [' '], behind, isBlank_newline level, stringText_write m.1,
    isBlank_nil, isBlank_space, h, rfl⟩

/-- The members that are written one after the other, the last one with a line break behind it. -/
theorem exists_pretty_members (level : Nat) (m : String × Json) (ms : List (String × Json)) :
    ∃ (first : (String × List Char) × List Char) (others : List ((String × List Char) × List Char)),
      (first :: others).map (·.1) = (m :: ms).map (fun m => (m.1, writePretty (level + 1) m.2)) ∧
      (∀ x ∈ first :: others, MemberText x.1 x.2) ∧
      first.2 ++ (others.flatMap fun x => ',' :: x.2)
        = newline (level + 1) ++ (writeString m.1 ++ (':' :: ' ' :: (writePretty (level + 1) m.2 ++
          (writePrettyMembers (level + 1) ms ++ newline level)))) := by
  induction ms generalizing m with
  | nil =>
    refine ⟨(_, _), [], rfl, List.forall_mem_singleton.2
      (memberText_pretty (level + 1) m (isBlank_newline level)), ?_⟩
    rw [List.flatMap_nil, List.append_nil, writePrettyMembers, List.nil_append]
  | cons m' ms ih =>
    obtain ⟨first, others, hmap, htexts, hflat⟩ := ih m'
    refine ⟨((m.1, writePretty (level + 1) m.2), _), first :: others, ?_,
      List.forall_mem_cons.2 ⟨memberText_pretty (level + 1) m isBlank_nil, htexts⟩, ?_⟩
    · rw [List.map_cons, hmap]
      rfl
    · rw [List.flatMap_cons, List.cons_append, hflat, writePrettyMembers]
      simp only [List.append_assoc, List.cons_append, List.append_nil]

/-- **The text over several lines is one of an object's texts.** -/
theorem objectText_pretty (level : Nat) (ms : List (String × Json)) :
    ObjectText (ms.map fun m => (m.1, writePretty (level + 1) m.2))
      (writePretty level (.obj ms)) := by
  cases ms with
  | nil =>
    rw [writePretty]
    exact .empty isBlank_nil
  | cons m ms =>
    obtain ⟨first, others, hmap, htexts, hflat⟩ := exists_pretty_members level m ms
    have htext : writePretty level (.obj (m :: ms))
        = '\x7b' :: (first.2 ++ ((others.flatMap fun x => ',' :: x.2) ++ ['\x7d'])) := by
      rw [← List.append_assoc, hflat, writePretty]
      simp only [List.append_assoc, List.cons_append]
    rw [← hmap, htext]
    exact .members htexts

end KeywordRunner.Json
