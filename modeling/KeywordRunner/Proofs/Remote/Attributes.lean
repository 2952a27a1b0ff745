import KeywordRunner.Proofs.Remote.Handles

/-!
# Proofs.Remote.Attributes — the parts of a value are the members it shows

A script reads a part of a value by its name, a dump shows the value as JSON. The two go different
ways: a name is looked for among the fixed fields of a handle before its attributes, and the JSON
form puts the fixed fields over attributes of the same names. They agree for every value, also for a
handle whose attributes repeat the names of its fixed fields.

* **`attr?_eq_some_iff`** — a part of what is shown as an object is the member of that name.
* **`fieldNames_of_handles`** — a handle that was read has the names of the members it was read
  from.
* **`attributes_are_members`** — both for every value and every object that is read.
-/

namespace KeywordRunner

theorem Table.nodup_keys {α : Type} (t : Table α) : t.keys.Nodup :=
  t.pairwise_keys.imp fun hlt => String.ne_of_lt hlt

namespace RemoteValue

variable {v w : RemoteValue} {o : ObjectRef} {fields shown : Table Json} {name : String}

/-! ## One name -/

/-- The fixed fields of a handle come first whether it is asked or shown. -/
theorem objectAttr?_eq_map (o : ObjectRef) (name : String) :
    objectAttr? o name = ((objectMembers o).get? name).map ofJson := by
  have hne : hashKey ≠ classNameKey := by decide
  unfold objectAttr?
  rw [get?_objectMembers]
  by_cases hhash : name = hashKey
  · subst hhash
    rw [if_pos rfl, if_neg hne, if_pos rfl, Option.map_some, ofJson_ofInt64]
  · rw [if_neg hhash, if_neg hhash]
    by_cases hclass : name = classNameKey
    · rw [if_pos hclass, if_pos hclass, Option.map_some]
      rfl
    · rw [if_neg hclass, if_neg hclass]

/-- The one member that a class shows. -/
def classMembers (className : String) : Table Json :=
  ⟨[(classNameKey, .str className)], List.pairwise_singleton _ _⟩

theorem get?_classMembers (className name : String) :
    (classMembers className).get? name
      = if name = classNameKey then some (.str className) else none := by
  show (if classNameKey = name then some (Json.str className) else none) = _
  simp only [eq_comm]

/-- What a value shows as a JSON object, or it shows something else and has no parts. -/
theorem shown_cases (v : RemoteValue) :
    (∃ shown : Table Json, toJson v = .obj shown.entries ∧
      ∀ name, v.attr? name = (shown.get? name).map ofJson) ∨
    ((∀ members, toJson v ≠ .obj members) ∧ ∀ name, v.attr? name = none) := by
  cases v with
  | object o => exact Or.inl ⟨objectMembers o, rfl, objectAttr?_eq_map o⟩
  | record fields => exact Or.inl ⟨fields, rfl, fun name => rfl⟩
  | classRef className =>
    refine Or.inl ⟨classMembers className, rfl, fun name => ?_⟩
    rw [get?_classMembers, attr?]
    split <;> rfl
  | float x =>
    refine Or.inr ⟨fun members => ?_, fun name => rfl⟩
    rw [toJson, floatJson]
    split <;> simp
  | null | bool _ | str _ | int _ | list _ =>
    exact Or.inr ⟨fun members => by simp [toJson, Json.ofInt64], fun name => rfl⟩

/-- A value has a part exactly if it shows a member of that name, and the part is what the member is
read as. -/
theorem attr?_eq_some_iff :
    v.attr? name = some w ↔
      ∃ members j, toJson v = .obj members ∧ (name, j) ∈ members ∧ w = ofJson j := by
  rcases shown_cases v with ⟨shown, hshown, hattr⟩ | ⟨hshown, hattr⟩
  · rw [hattr, Option.map_eq_some_iff]
    constructor
    · rintro ⟨j, hj, rfl⟩
      exact ⟨shown.entries, j, hshown, shown.sorted.find?_eq_some_iff.1 hj, rfl⟩
    · rintro ⟨members, j, hmembers, hj, rfl⟩
      cases hshown.symm.trans hmembers
      exact ⟨j, shown.sorted.find?_eq_some_iff.2 hj, rfl⟩
  · rw [hattr]
    constructor
    · intro h
      exact absurd h (by simp)
    · rintro ⟨members, _, hmembers, _⟩
      exact absurd hmembers (hshown members)

/-! ## All names -/

theorem mem_keys_otherMembers :
    name ∈ (otherMembers fields).keys ↔
      name ∈ fields.keys ∧ name ≠ hashKey ∧ name ≠ classNameKey := by
  rw [Table.mem_keys, Table.mem_keys, get?_otherMembers]
  by_cases hfixed : name = classNameKey ∨ name = hashKey
  · rw [if_pos hfixed]
    constructor
    · rintro ⟨j, hj⟩
      exact absurd hj (by simp)
    · rintro ⟨_, hhash, hclass⟩
      exact absurd hfixed (not_or.2 ⟨hclass, hhash⟩)
  · rw [if_neg hfixed]
    obtain ⟨hclass, hhash⟩ := not_or.1 hfixed
    exact (and_iff_left ⟨hhash, hclass⟩).symm

theorem mem_fieldNames_iff :
    name ∈ fieldNames o ↔ name = hashKey ∨ name = classNameKey ∨ name ∈ o.attrs.keys := by
  rw [fieldNames, List.mem_cons, List.mem_cons]

/-- **A handle that was read has the names of the members it was read from, each once.** -/
theorem fieldNames_of_handles {hash : Int64} {className : String}
    (h : Handles fields.entries hash className) :
    (fieldNames ⟨hash, className, otherMembers fields⟩).Nodup ∧
      ∀ name, name ∈ fieldNames ⟨hash, className, otherMembers fields⟩ ↔ name ∈ fields.keys := by
  have hhash : hashKey ∈ fields.keys := by
    obtain ⟨j, hj, _⟩ := Option.bind_eq_some_iff.1 h.1
    exact Table.mem_keys.2 ⟨j, hj⟩
  have hclass : classNameKey ∈ fields.keys :=
    Table.mem_keys.2 ⟨_, get?_classNameKey_of_handles h⟩
  constructor
  · -- the fixed names were taken out of the attributes
    refine List.nodup_cons.2 ⟨fun hmem => ?_, List.nodup_cons.2 ⟨fun hmem => ?_, ?_⟩⟩
    · rcases List.mem_cons.1 hmem with heq | hmem
      · exact absurd heq (by decide)
      · exact (mem_keys_otherMembers.1 hmem).2.1 rfl
    · exact (mem_keys_otherMembers.1 hmem).2.2 rfl
    · exact (otherMembers fields).nodup_keys
  · intro name
    rw [mem_fieldNames_iff, mem_keys_otherMembers]
    constructor
    · rintro (rfl | rfl | ⟨hmem, _⟩)
      · exact hhash
      · exact hclass
      · exact hmem
    · intro hmem
      by_cases hname : name = hashKey
      · exact Or.inl hname
      · by_cases hname' : name = classNameKey
        · exact Or.inr (Or.inl hname')
        · exact Or.inr (Or.inr ⟨hmem, hname, hname'⟩)

/-- **The parts of a value are the members it shows.** A name stands for a part of a value exactly
if the value is shown as an object with a member of that name, and the part is what this member is
read as. An object whose hash stands for a handle and whose class name is a text becomes a handle,
and its field names are the names of its members, each once; any other object becomes a record of
all its members. -/
theorem attributes_are_members :
    (∀ (v : RemoteValue) (name : String) (w : RemoteValue),
      v.attr? name = some w ↔
        ∃ members j, toJson v = .obj members ∧ (name, j) ∈ members ∧ w = ofJson j) ∧
    ∀ fields : Table Json,
      (∃ j o, fields.get? hashKey = some j ∧ Designates j o.hash ∧
        fields.get? classNameKey = some (.str o.className) ∧
        ofJson (.obj fields.entries) = .object o ∧
        (fieldNames o).Nodup ∧ ∀ name, name ∈ fieldNames o ↔ name ∈ fields.keys) ∨
      ((∀ j hash className, fields.get? hashKey = some j → Designates j hash →
          fields.get? classNameKey ≠ some (.str className)) ∧
        ofJson (.obj fields.entries) = .record fields) := by
  refine ⟨fun v name w => attr?_eq_some_iff, fun fields => ?_⟩
  rcases ofMembers_cases fields with ⟨hash, className, hhandles, hread⟩ | ⟨hnone, hread⟩
  · obtain ⟨⟨j, hj, hhash⟩, hclass⟩ := handles_iff.1 hhandles
    exact Or.inl ⟨j, _, hj, hhash, hclass, hread, fieldNames_of_handles hhandles⟩
  · refine Or.inr ⟨fun j hash className hj hhash hclass => ?_, hread⟩
    exact hnone hash className (handles_iff.2 ⟨⟨j, hj, hhash⟩, hclass⟩)

/-- A handle with an attribute named like its hash shows its own hash and gives it when asked. -/
example :
    attr? (.object ⟨5, "a.B", Table.ofList [("hash", .str "9"), ("text", .null)]⟩) "hash"
      = some (.int 5) := by
  rfl

end RemoteValue

end KeywordRunner
