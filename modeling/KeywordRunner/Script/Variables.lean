import KeywordRunner.Script.Fault
import KeywordRunner.Script.Token

/-!
# Script.Variables — names bound by a script

A name is declared when the line that binds it is loaded, and has a value once that line has run.
Until then it reads as null.
-/

namespace KeywordRunner.Script

/-- The declared names, each with its value once it has one. -/
structure Variables where
  slots : Table (Option RemoteValue)

namespace Variables

def empty : Variables := ⟨∅⟩

instance : EmptyCollection Variables := ⟨empty⟩
instance : Inhabited Variables := ⟨empty⟩

def isDeclared (vs : Variables) (name : String) : Bool := vs.slots.contains name

/-- Declares a name; one that is declared keeps its value. -/
def declare (vs : Variables) (name : String) : Variables :=
  if vs.isDeclared name then vs else ⟨vs.slots.insert name none⟩

def set (vs : Variables) (name : String) (value : RemoteValue) : Variables :=
  ⟨vs.slots.insert name (some value)⟩

/-- The value of a name that has one. -/
def get? (vs : Variables) (name : String) : Option RemoteValue := (vs.slots.get? name).join

def size (vs : Variables) : Nat := vs.slots.size

/-- What an argument word stands for. -/
def resolve (vs : Variables) (word : String) : Except KeywordFault RemoteValue :=
  match Token.classify word with
  | .literal text => .ok (.str text)
  | .variable name attr =>
    match vs.slots.get? name with
    | none => .error (.undefinedVariable name)
    | some slot =>
      let value := slot.getD .null
      match attr with
      | none => .ok value
      | some attr =>
        match value.attr? attr with
        | some part => .ok part
        | none => .error (.missingAttribute name attr value.kind)

/-- What the argument words of a line stand for; the first that stands for nothing decides. -/
def resolveAll (vs : Variables) : List String → Except KeywordFault (List RemoteValue)
  | [] => .ok []
  | word :: words => do
    let value ← vs.resolve word
    let values ← vs.resolveAll words
    pure (value :: values)

/-! ### Names after each operation -/

theorem isDeclared_iff {vs : Variables} {name : String} :
    vs.isDeclared name = true ↔ ∃ slot, vs.slots.get? name = some slot :=
  Option.isSome_iff_exists

/-- Declaring gives an undeclared name a slot without a value and changes nothing else. -/
theorem get?_slots_declare (vs : Variables) (name k : String) :
    (vs.declare name).slots.get? k
      = (vs.slots.get? k).or (if k = name then some none else none) := by
  unfold declare
  by_cases hd : vs.isDeclared name = true
  · rw [if_pos hd]
    by_cases hk : k = name
    · obtain ⟨slot, hslot⟩ := isDeclared_iff.1 hd
      rw [hk, hslot, Option.some_or]
    · rw [if_neg hk, Option.or_none]
  · rw [if_neg hd, Table.get?_insert]
    by_cases hk : k = name
    · have hnone : vs.slots.get? name = none := by
        simpa [isDeclared, Table.contains] using hd
      rw [if_pos hk, if_pos hk, hk, hnone, Option.none_or]
    · rw [if_neg hk, if_neg hk, Option.or_none]

@[simp] theorem isDeclared_set (vs : Variables) (name k : String) (value : RemoteValue) :
    (vs.set name value).isDeclared k = (k == name || vs.isDeclared k) :=
  Table.contains_insert ..

/-- Only a word that reads an undeclared variable fails to resolve for that reason. -/
theorem isDeclared_eq_false_of_resolve {vs : Variables} {word name : String}
    (h : vs.resolve word = .error (.undefinedVariable name)) :
    vs.isDeclared name = false ∧ ∃ attr, Token.classify word = .variable name attr := by
  unfold resolve at h
  split at h
  · exact absurd h (by simp)
  · next name' attr hword =>
    split at h
    · next hslot =>
      cases h
      exact ⟨by rw [isDeclared, Table.contains, hslot]; rfl, attr, hword⟩
    · -- a declared variable can only lack an attribute
      split at h
      · exact absurd h (by simp)
      · dsimp only at h
        split at h <;> exact absurd h (by simp)

/-- The first word that does not resolve decides why a list of words does not. -/
theorem exists_resolve_error {vs : Variables} {words : List String} {fault : KeywordFault}
    (h : vs.resolveAll words = .error fault) : ∃ word ∈ words, vs.resolve word = .error fault := by
  induction words with
  | nil => exact absurd h (by simp [resolveAll])
  | cons word words ih =>
    rw [resolveAll] at h
    cases hword : vs.resolve word with
    | error f =>
      rw [hword] at h
      cases h
      exact ⟨word, List.mem_cons_self, hword⟩
    | ok value =>
      rw [hword] at h
      cases hwords : vs.resolveAll words with
      | error f =>
        rw [hwords] at h
        cases h
        obtain ⟨w, hmem, hw⟩ := ih hwords
        exact ⟨w, List.mem_cons_of_mem _ hmem, hw⟩
      | ok values =>
        rw [hwords] at h
        cases h

end Variables

end KeywordRunner.Script
