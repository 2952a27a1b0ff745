import KeywordRunner.Proofs.Wire.Escape
import Mathlib.Data.Set.Function

/-!
# Proofs.Wire.Escaped — reading escapes in one scan, and which texts are escaped

Unescaping takes two passes, and the second one sees what the first one wrote. Yet the first pass
writes newlines only, so it never brings an `e` behind a `%`, and it leaves every `e` that is there.
Both passes together therefore do what one scan from left to right does, whatever the text is. From
the rules of that scan it follows which texts escaping gives: those on one line in which every `%`
is followed by `e` or `n`.

* **`unescape_eq_readEscapes`** — two passes are one scan.
* **`escape_bijOn`** — escaping and unescaping between all texts and the escaped ones.
-/

namespace KeywordRunner.Wire

/-- Escapes read in one scan: `%n` is a newline, `%e` is `%`, and every other character stands for
itself, a `%` before anything else included. -/
def readEscapes : List Char → List Char
  | '%' :: 'n' :: cs => '\n' :: readEscapes cs
  | '%' :: 'e' :: cs => '%' :: readEscapes cs
  | c :: cs => c :: readEscapes cs
  | [] => []

/-! ## Two passes by rules -/

theorem unescapeChars_newline (cs : List Char) :
    unescapeChars ('%' :: 'n' :: cs) = '\n' :: unescapeChars cs := by
  unfold unescapeChars
  rw [replacePair_cons_cons, if_pos ⟨rfl, rfl⟩, replacePair_cons_of_ne _ _ (by decide)]

theorem unescapeChars_percent (cs : List Char) :
    unescapeChars ('%' :: 'e' :: cs) = '%' :: unescapeChars cs := by
  have hfirst : replacePair '%' 'n' '\n' ('%' :: 'e' :: cs)
      = '%' :: 'e' :: replacePair '%' 'n' '\n' cs := by
    rw [replacePair_cons_cons, if_neg (by decide), replacePair_cons_of_ne _ _ (by decide)]
  unfold unescapeChars
  rw [hfirst, replacePair_cons_cons, if_pos ⟨rfl, rfl⟩]

theorem unescapeChars_other {c : Char} (h : c ≠ '%') (cs : List Char) :
    unescapeChars (c :: cs) = c :: unescapeChars cs := by
  unfold unescapeChars
  rw [replacePair_cons_of_ne _ _ h, replacePair_cons_of_ne _ _ h]

/-- A pass leaves a character in front that was there before, or the one that it writes. -/
theorem head?_replacePair (a b c : Char) (cs : List Char) :
    (replacePair a b c cs).head? = some c ∨ (replacePair a b c cs).head? = cs.head? := by
  match cs with
  | [] => exact Or.inr rfl
  | [x] => exact Or.inr rfl
  | x :: y :: cs =>
    rw [replacePair_cons_cons]
    split
    · exact Or.inl rfl
    · exact Or.inr rfl

/-- A character that starts a pair with no other is passed over. -/
theorem replacePair_cons_of_head? {a b : Char} (c x : Char) {cs : List Char}
    (h : cs.head? ≠ some b) : replacePair a b c (x :: cs) = x :: replacePair a b c cs := by
  cases cs with
  | nil => rfl
  | cons y cs =>
    have hpair : ¬(x = a ∧ y = b) := fun hpair => h (congrArg some hpair.2)
    rw [replacePair_cons_cons, if_neg hpair]

/-- A `%` before anything else stays: no pass makes a pair of it, for what the first one writes
behind it is a newline. -/
theorem unescapeChars_lone {cs : List Char} (hn : cs.head? ≠ some 'n') (he : cs.head? ≠ some 'e') :
    unescapeChars ('%' :: cs) = '%' :: unescapeChars cs := by
  have hfirst : (replacePair '%' 'n' '\n' cs).head? ≠ some 'e' := by
    rcases head?_replacePair '%' 'n' '\n' cs with hwritten | hkept
    · rw [hwritten]
      decide
    · rw [hkept]
      exact he
  unfold unescapeChars
  rw [replacePair_cons_of_head? _ _ hn, replacePair_cons_of_head? _ _ hfirst]

/-- The cases of the scan are the rules of the two passes. -/
theorem unescapeChars_eq_readEscapes (cs : List Char) : unescapeChars cs = readEscapes cs := by
  fun_induction readEscapes cs with
  | case1 cs ih => rw [unescapeChars_newline, ih]
  | case2 cs ih => rw [unescapeChars_percent, ih]
  | case3 c cs hn he ih =>
    by_cases hpercent : c = '%'
    · subst hpercent
      have hheads : cs.head? ≠ some 'n' ∧ cs.head? ≠ some 'e' := by
        cases cs with
        | nil => simp
        | cons d cs =>
          have hnotn : d ≠ 'n' := fun hd => hn cs rfl (hd ▸ rfl)
          have hnote : d ≠ 'e' := fun hd => he cs rfl (hd ▸ rfl)
          simp [hnotn, hnote]
      rw [unescapeChars_lone hheads.1 hheads.2, ih]
    · rw [unescapeChars_other hpercent, ih]
  | case4 => rfl

/-- **Unescaping is one scan from left to right**, also of texts that were never escaped. -/
theorem unescape_eq_readEscapes (t : String) :
    unescape t = String.ofList (readEscapes t.toList) := by
  unfold unescape
  rw [unescapeChars_eq_readEscapes]

/-- The passes in the other order make a newline of an escaped `%` before an `n`. -/
example : unescape "%en" = "%n" ∧
    replacePair '%' 'n' '\n' (replacePair '%' 'e' '%' "%en".toList) = ['\n'] := by decide

/-! ## Escaped texts -/

/-- A text on one line in which every `%` is followed by `e` or `n`. -/
structure IsEscaped (cs : List Char) : Prop where
  oneLine : '\n' ∉ cs
  percent : ∀ before after, cs = before ++ '%' :: after →
    after.head? = some 'e' ∨ after.head? = some 'n'

theorem isEscaped_nil : IsEscaped [] where
  oneLine := List.not_mem_nil
  percent before after h := absurd h (by simp)

/-- Whether a text is escaped shows at its first character and in the rest. -/
theorem isEscaped_cons_iff {c : Char} {cs : List Char} :
    IsEscaped (c :: cs) ↔
      c ≠ '\n' ∧ (c = '%' → cs.head? = some 'e' ∨ cs.head? = some 'n') ∧ IsEscaped cs := by
  constructor
  · intro h
    obtain ⟨hne, hrest⟩ := List.ne_and_not_mem_of_not_mem_cons h.oneLine
    refine ⟨hne.symm, fun hpercent => ?_, hrest, fun before after hsplit => ?_⟩
    · exact h.percent [] cs (hpercent ▸ rfl)
    · exact h.percent (c :: before) after (by rw [hsplit, List.cons_append])
  · rintro ⟨hne, hfront, hrest⟩
    refine ⟨List.not_mem_cons_of_ne_of_not_mem hne.symm hrest.oneLine, ?_⟩
    intro before after hsplit
    cases before with
    | nil =>
      obtain ⟨hpercent, hafter⟩ := List.cons.inj hsplit
      rw [← hafter]
      exact hfront hpercent
    | cons d before => exact hrest.percent before after (List.cons.inj hsplit).2

/-- Escaping gives an escaped text. -/
theorem isEscaped_escapeChars (cs : List Char) : IsEscaped (escapeChars cs) := by
  induction cs with
  | nil => exact isEscaped_nil
  | cons c cs ih =>
    by_cases hpercent : c = '%'
    · subst hpercent
      rw [escapeChars_percent, isEscaped_cons_iff, isEscaped_cons_iff]
      exact ⟨by decide, fun _ => Or.inl rfl, by decide, fun h => absurd h (by decide), ih⟩
    · by_cases hnewline : c = '\n'
      · subst hnewline
        rw [escapeChars_newline, isEscaped_cons_iff, isEscaped_cons_iff]
        exact ⟨by decide, fun _ => Or.inr rfl, by decide, fun h => absurd h (by decide), ih⟩
      · rw [escapeChars_other hpercent hnewline, isEscaped_cons_iff]
        exact ⟨hnewline, fun h => absurd h hpercent, ih⟩

/-- An escaped text is the escaped form of what a scan reads in it: each escape is written as it was
read, and nothing else needs one. -/
theorem escapeChars_readEscapes {cs : List Char} (h : IsEscaped cs) :
    escapeChars (readEscapes cs) = cs := by
  fun_induction readEscapes cs with
  | case1 cs ih =>
    obtain ⟨_, _, h⟩ := isEscaped_cons_iff.1 h
    obtain ⟨_, _, h⟩ := isEscaped_cons_iff.1 h
    rw [escapeChars_newline, ih h]
  | case2 cs ih =>
    obtain ⟨_, _, h⟩ := isEscaped_cons_iff.1 h
    obtain ⟨_, _, h⟩ := isEscaped_cons_iff.1 h
    rw [escapeChars_percent, ih h]
  | case3 c cs hn he ih =>
    obtain ⟨hnewline, hfront, h⟩ := isEscaped_cons_iff.1 h
    have hpercent : c ≠ '%' := by
      -- in an escaped text one of the first two cases would have applied
      intro hc
      rcases hfront hc with hhead | hhead
      · obtain ⟨ds, hds⟩ := List.head?_eq_some_iff.1 hhead
        exact he ds hc hds
      · obtain ⟨ds, hds⟩ := List.head?_eq_some_iff.1 hhead
        exact hn ds hc hds
    rw [escapeChars_other hpercent hnewline, ih h]
  | case4 => rfl

theorem escape_unescape {t : String} (h : IsEscaped t.toList) : escape (unescape t) = t := by
  unfold escape unescape
  rw [String.toList_ofList, unescapeChars_eq_readEscapes, escapeChars_readEscapes h,
    String.ofList_toList]

/-- **Escaping maps all texts one to one onto the escaped ones**, and unescaping is the way back in
both directions. -/
theorem escape_bijOn :
    Set.BijOn escape Set.univ {t | IsEscaped t.toList} ∧
      Set.InvOn unescape escape Set.univ {t | IsEscaped t.toList} := by
  have hmaps : Set.MapsTo escape Set.univ {t | IsEscaped t.toList} := by
    intro s _
    show IsEscaped (escape s).toList
    unfold escape
    rw [String.toList_ofList]
    exact isEscaped_escapeChars s.toList
  have hinv : Set.InvOn unescape escape Set.univ {t | IsEscaped t.toList} :=
    ⟨fun s _ => unescape_escape s, fun _ h => escape_unescape h⟩
  exact ⟨hinv.bijOn hmaps (Set.mapsTo_univ _ _), hinv⟩

end KeywordRunner.Wire
