import KeywordRunner.Wire.Escape

/-!
# Proofs.Wire.Escape — what escaping does to a payload, and that it is undone

Escaping in two passes writes each character by itself: `escapeChars_append` is the rule. It leaves
no newline, and each of the two passes of unescaping undoes one of escaping. The first one does so
because a `%` of the payload is followed by an `e` at that time and never by an `n`.

* **`newline_not_mem_escapeChars`** — a payload travels on one line.
* **`unescape_escape`** — what was escaped comes back.
-/

namespace KeywordRunner.Wire

/-! ## One character at a time -/

theorem replaceChar_cons (c : Char) (text : List Char) (d : Char) (cs : List Char) :
    replaceChar c text (d :: cs) = (if d = c then text else [d]) ++ replaceChar c text cs :=
  rfl

theorem replaceChar_append (c : Char) (text cs ds : List Char) :
    replaceChar c text (cs ++ ds) = replaceChar c text cs ++ replaceChar c text ds :=
  List.flatMap_append

theorem escapeChars_percent (cs : List Char) :
    escapeChars ('%' :: cs) = '%' :: 'e' :: escapeChars cs := rfl

theorem escapeChars_newline (cs : List Char) :
    escapeChars ('\n' :: cs) = '%' :: 'n' :: escapeChars cs := rfl

theorem escapeChars_other {c : Char} (hpercent : c ≠ '%') (hnewline : c ≠ '\n') (cs : List Char) :
    escapeChars (c :: cs) = c :: escapeChars cs := by
  unfold escapeChars
  rw [replaceChar_cons, if_neg hpercent, List.singleton_append, replaceChar_cons, if_neg hnewline,
    List.singleton_append]

theorem escapeChars_append (cs ds : List Char) :
    escapeChars (cs ++ ds) = escapeChars cs ++ escapeChars ds := by
  unfold escapeChars
  rw [replaceChar_append, replaceChar_append]

theorem newline_not_mem_escapeChars (cs : List Char) : '\n' ∉ escapeChars cs := by
  induction cs with
  | nil => exact List.not_mem_nil
  | cons c cs ih =>
    by_cases hpercent : c = '%'
    · subst hpercent
      rw [escapeChars_percent]
      simp [ih]
    · by_cases hnewline : c = '\n'
      · subst hnewline
        rw [escapeChars_newline]
        simp [ih]
      · rw [escapeChars_other hpercent hnewline]
        simp [ih, Ne.symm hnewline]

/-! ## Both passes undone -/

/-- A character that starts no pair is passed over. -/
theorem replacePair_cons_of_ne {a x : Char} (b c : Char) (h : x ≠ a) (cs : List Char) :
    replacePair a b c (x :: cs) = x :: replacePair a b c cs := by
  cases cs with
  | nil => rfl
  | cons y cs => rw [replacePair_cons_cons, if_neg fun hpair => h hpair.1]

/-- The first pass brings the newlines back, and no `%` of the payload is in its way. -/
theorem replacePair_escapeChars (cs : List Char) :
    replacePair '%' 'n' '\n' (escapeChars cs) = replaceChar '%' ['%', 'e'] cs := by
  induction cs with
  | nil => rfl
  | cons c cs ih =>
    rw [replaceChar_cons]
    by_cases hpercent : c = '%'
    · subst hpercent
      rw [escapeChars_percent, replacePair_cons_cons, if_neg (by decide),
        replacePair_cons_of_ne _ _ (by decide), ih, if_pos rfl]
      rfl
    · rw [if_neg hpercent, List.singleton_append]
      by_cases hnewline : c = '\n'
      · subst hnewline
        rw [escapeChars_newline, replacePair_cons_cons, if_pos ⟨rfl, rfl⟩, ih]
      · rw [escapeChars_other hpercent hnewline, replacePair_cons_of_ne _ _ hpercent, ih]

/-- The second pass brings every `%` back. -/
theorem replacePair_replaceChar (cs : List Char) :
    replacePair '%' 'e' '%' (replaceChar '%' ['%', 'e'] cs) = cs := by
  induction cs with
  | nil => rfl
  | cons c cs ih =>
    rw [replaceChar_cons]
    by_cases hpercent : c = '%'
    · subst hpercent
      have hpair : ['%', 'e'] ++ replaceChar '%' ['%', 'e'] cs
          = '%' :: 'e' :: replaceChar '%' ['%', 'e'] cs := rfl
      rw [if_pos rfl, hpair, replacePair_cons_cons, if_pos ⟨rfl, rfl⟩, ih]
    · rw [if_neg hpercent, List.singleton_append, replacePair_cons_of_ne _ _ hpercent, ih]

theorem unescapeChars_escapeChars (cs : List Char) : unescapeChars (escapeChars cs) = cs := by
  unfold unescapeChars
  rw [replacePair_escapeChars, replacePair_replaceChar]

theorem unescape_escape (s : String) : unescape (escape s) = s := by
  unfold unescape escape
  rw [String.toList_ofList, unescapeChars_escapeChars, String.ofList_toList]

end KeywordRunner.Wire
