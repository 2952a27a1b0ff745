import KeywordRunner.Script.Token
import Mathlib.Data.List.TakeWhile

/-!
# Proofs.Script.References — the words that refer to variables

A word that starts with `$` and goes on refers to the variable that is named up to the first point;
behind the point there is the name of an attribute. `Refers` gives the two forms of such words, and
every other word stands for itself.

* **`Token.Refers`** — a word, the variable it refers to, and the attribute, if it is for one.
* **`Token.classify_eq_variable_iff`** — words are classified by their form.
* **`Token.Refers.not_mem_point`** — no word refers to a variable whose name has a point.
-/

namespace KeywordRunner.Script

/-- A name cut at its first point. -/
theorem exists_point {name : String} (h : '.' ∈ name.toList) :
    ∃ before attr, name = before ++ "." ++ attr ∧ '.' ∉ before.toList := by
  obtain ⟨before, attr, hcs, hbefore⟩ := List.eq_append_cons_of_mem h
  refine ⟨String.ofList before, String.ofList attr, String.toList_injective ?_, ?_⟩
  · rw [hcs]
    simp
  · rw [String.toList_ofList]
    exact hbefore

namespace Token

/-- The forms of words that refer to variables: a dollar sign and a name without a point, or these
with a point and the name of an attribute behind them. A dollar sign alone is neither. -/
inductive Refers : String → String → Option String → Prop where
  | whole {name : String} (hname : name ≠ "") (hpoint : '.' ∉ name.toList) :
      Refers ("$" ++ name) name none
  | part {name : String} (hpoint : '.' ∉ name.toList) (attr : String) :
      Refers ("$" ++ (name ++ "." ++ attr)) name (some attr)

/-- No word refers to a variable whose name has a point. -/
theorem Refers.not_mem_point {word name : String} {attr : Option String}
    (h : Refers word name attr) : '.' ∉ name.toList := by
  cases h with
  | whole _ hpoint => exact hpoint
  | part hpoint _ => exact hpoint

/-! ## Where the first point is -/

theorem ne_point_of_not_mem {cs : List Char} (h : '.' ∉ cs) : ∀ c ∈ cs, (c != '.') = true :=
  fun _ hc => bne_iff_ne.2 fun heq => h (heq ▸ hc)

theorem splitAttr_of_not_mem {cs : List Char} (h : '.' ∉ cs) : splitAttr cs = (cs, none) := by
  rw [splitAttr, List.dropWhile_eq_nil_iff.2 (ne_point_of_not_mem h)]

/-- Only the first point separates. -/
theorem splitAttr_append {before attr : List Char} (h : '.' ∉ before) :
    splitAttr (before ++ '.' :: attr) = (before, some attr) := by
  have hall := ne_point_of_not_mem h
  have hdrop : ('.' :: attr).dropWhile (· != '.') = '.' :: attr :=
    List.dropWhile_cons_of_neg (by decide)
  have htake : ('.' :: attr).takeWhile (· != '.') = [] := List.takeWhile_cons_of_neg (by decide)
  rw [splitAttr, List.dropWhile_append_of_pos hall, hdrop, List.takeWhile_append_of_pos hall, htake,
    List.append_nil]

theorem classify_dollar_eq {name : String} (h : name ≠ "") :
    classify ("$" ++ name)
      = .variable (String.ofList (splitAttr name.toList).1)
          ((splitAttr name.toList).2.map String.ofList) := by
  have hword : ("$" ++ name).toList = '$' :: name.toList := String.toList_append
  cases hcs : name.toList with
  | nil => exact absurd (String.toList_eq_nil_iff.1 hcs) h
  | cons c cs =>
    unfold classify
    rw [hword, hcs]
    rfl

/-- Without a point, `$` and a name refer to the variable of that name. -/
theorem classify_dollar {name : String} (hname : name ≠ "") (hpoint : '.' ∉ name.toList) :
    classify ("$" ++ name) = .variable name none := by
  rw [classify_dollar_eq hname, splitAttr_of_not_mem hpoint, String.ofList_toList]
  rfl

/-- With a point, they refer to an attribute of another variable. -/
theorem classify_dollar_point {before : String} (hpoint : '.' ∉ before.toList) (attr : String) :
    classify ("$" ++ (before ++ "." ++ attr)) = .variable before (some attr) := by
  have hcs : (before ++ "." ++ attr).toList = before.toList ++ '.' :: attr.toList := by
    rw [String.toList_append, String.toList_append, List.append_assoc]
    rfl
  have hname : before ++ "." ++ attr ≠ "" := by
    intro hempty
    rw [hempty] at hcs
    exact absurd hcs (by simp)
  rw [classify_dollar_eq hname, hcs, splitAttr_append hpoint, String.ofList_toList, Option.map_some,
    String.ofList_toList]

/-- Only a word that starts with a dollar sign and goes on refers to a variable. -/
theorem exists_dollar_of_classify {word name : String} {attr : Option String}
    (h : classify word = .variable name attr) : ∃ rest, rest ≠ "" ∧ word = "$" ++ rest := by
  unfold classify at h
  split at h
  · next c cs hword =>
    have hrest : (String.ofList (c :: cs)).toList = c :: cs := String.toList_ofList
    refine ⟨String.ofList (c :: cs), fun hempty => ?_, String.toList_injective ?_⟩
    · rw [hempty] at hrest
      exact absurd hrest (by simp)
    · rw [hword, String.toList_append, hrest]
      rfl
  · exact absurd h (by simp)

/-- **Words are classified by their form.** -/
theorem classify_eq_variable_iff {word name : String} {attr : Option String} :
    classify word = .variable name attr ↔ Refers word name attr := by
  constructor
  · intro h
    obtain ⟨rest, hne, rfl⟩ := exists_dollar_of_classify h
    by_cases hpoint : '.' ∈ rest.toList
    · obtain ⟨before, after, rfl, hbefore⟩ := exists_point hpoint
      cases (classify_dollar_point hbefore after).symm.trans h
      exact .part hbefore after
    · cases (classify_dollar hne hpoint).symm.trans h
      exact .whole hne hpoint
  · intro h
    cases h with
    | whole hname hpoint => exact classify_dollar hname hpoint
    | part hpoint attr => exact classify_dollar_point hpoint attr

end Token

end KeywordRunner.Script
