import KeywordRunner.Proofs.Json.Values
import KeywordRunner.Proofs.Numeral.Canonical
import KeywordRunner.Proofs.Numeral.Rounding
import KeywordRunner.Remote.Value

/-!
# Proofs.Remote.Rehydration — values read from JSON and shown as JSON again

Reading an answer goes into lists but not into objects: an object becomes a handle or a record, and
its other members are kept as they are. Showing goes the same way back. What is read comes back from
what is shown, always; what was answered is what is shown unless it has, in lists only, an integer
beyond 64 signed bits, which is read as a rounded number, or an object whose handle is not written
as an integer, which is shown as one.

* **`ofJson_toJson_ofJson`** — what is shown is read as what it was read as.
* **`toJson_ofMembers_cases`** — one object, read and shown again.
* **`toJson_ofJson_iff`** — which values are shown as they were.
* **`rehydration_loses_nothing`** — both directions for every value.
-/

namespace KeywordRunner

/-! ## Tables of members -/

/-- Giving a key the value it has changes nothing, and giving it another one does. -/
theorem Entries.Sorted.insert_eq_self_iff {α : Type} {es : List (String × α)} (h : Sorted es)
    {k : String} {v : α} : Entries.insert k v es = es ↔ find? k es = some v := by
  constructor
  · intro heq
    rw [← heq, find?_insert_self]
  · intro hv
    refine (h.insert k v).ext_find? h fun k' => ?_
    rw [find?_insert]
    by_cases hk : k' = k
    · rw [if_pos hk, hk, hv]
    · rw [if_neg hk]

namespace Table

variable {α : Type}

theorem entries_ofList {es : List (String × α)} (h : Entries.Sorted es) :
    (ofList es).entries = es :=
  Entries.insertAll_of_sorted h

theorem ofList_entries (t : Table α) : ofList t.entries = t := by
  obtain ⟨es, hsorted⟩ := t
  have hentries := entries_ofList hsorted
  cases hlist : ofList es
  rw [hlist] at hentries
  cases hentries
  rfl

end Table

/-! ## Integers of 64 bits -/

namespace WideInt

variable {w : WideInt}

theorem toInt64?_ofInt64 (i : Int64) : (ofInt64 i).toInt64? = some i := by
  have hupper : i.toInt < 0x8000000000000000 := i.toInt_lt
  unfold toInt64? ofInt64
  rw [if_pos hupper, Int64.ofInt_toInt]

theorem eq_ofInt64_of_toInt64? {i : Int64} (h : w.toInt64? = some i) : w = ofInt64 i := by
  unfold toInt64? at h
  split at h
  · next hupper =>
    obtain ⟨val, hlower, hwide⟩ := w
    cases h
    have hval : (Int64.ofInt val).toInt = val := Int64.toInt_ofInt_of_le hlower hupper
    simp [ofInt64, hval]
  · exact absurd h (by simp)

theorem fits64_ofInt64 (i : Int64) : Signed.Fits64 (ofInt64 i).val := Signed.fits64_toInt i

theorem exists_toInt64?_iff : (∃ i, w.toInt64? = some i) ↔ Signed.Fits64 w.val := by
  constructor
  · rintro ⟨i, h⟩
    rw [eq_ofInt64_of_toInt64? h]
    exact fits64_ofInt64 i
  · intro h
    exact ⟨_, if_pos h.2⟩

/-- An integer beyond 64 signed bits still has a finite nearest number. -/
theorem isFinite_ofInt (w : WideInt) : (Nearest.ofInt w.val).isFinite = true := by
  refine Nearest.isFinite_ofInt ?_
  have hlower := w.lower
  have hupper := w.upper
  by_cases hzero : w.val.natAbs = 0
  · rw [hzero]
    decide
  · have hbits : w.val.natAbs.log2 < 65 := (Nat.log2_lt hzero).2 (by omega)
    omega

end WideInt

/-! ## What is reached through lists -/

namespace Json

/-- Induction over what is reached through lists; objects are not opened. -/
theorem induction_items {P : Json → Prop} (null : P .null) (bool : ∀ b, P (.bool b))
    (num : ∀ n, P (.num n)) (str : ∀ s, P (.str s)) (obj : ∀ members, P (.obj members))
    (arr : ∀ items, (∀ j ∈ items, P j) → P (.arr items)) : ∀ v, P v
  | .null => null
  | .bool b => bool b
  | .num n => num n
  | .str s => str s
  | .obj members => obj members
  | .arr items => arr items fun j _ => induction_items null bool num str obj arr j

/-- The values that are reached from a value through lists only. -/
inductive Reaches : Json → Json → Prop where
  | self (v : Json) : Reaches v v
  | item {items : List Json} {j u : Json} (hmem : j ∈ items) (hreach : Reaches j u) :
      Reaches (.arr items) u

variable {u v : Json} {items : List Json}

theorem forall_reaches_iff {P : Json → Prop} (hlist : ∀ items, v ≠ .arr items) :
    (∀ u, Reaches v u → P u) ↔ P v := by
  constructor
  · intro hall
    exact hall v (.self v)
  · intro h u hu
    cases hu with
    | self => exact h
    | item _ _ => exact absurd rfl (hlist _)

theorem forall_reaches_arr {P : Json → Prop} (h : P (.arr items)) :
    (∀ u, Reaches (.arr items) u → P u) ↔ ∀ j ∈ items, ∀ u, Reaches j u → P u := by
  constructor
  · intro hall j hj u hu
    exact hall u (.item hj hu)
  · intro hall u hu
    cases hu with
    | self => exact h
    | item hmem hreach => exact hall _ hmem u hreach

end Json

namespace RemoteValue

/-! ## Numbers -/

theorem ofNumber_of_toInt64? {w : WideInt} {i : Int64} (h : w.toInt64? = some i) :
    ofNumber (.int w) = .int i := by
  unfold ofNumber
  dsimp only
  rw [h]

theorem ofNumber_of_wide {w : WideInt} (h : w.toInt64? = none) :
    ofNumber (.int w) = .float (Nearest.ofInt w.val) := by
  unfold ofNumber
  dsimp only
  rw [h]

theorem ofJson_ofInt64 (i : Int64) : ofJson (Json.ofInt64 i) = .int i :=
  ofNumber_of_toInt64? (WideInt.toInt64?_ofInt64 i)

theorem toJson_float {x : Binary64} (h : x.isFinite = true) :
    toJson (.float x) = .num (.real x h) :=
  dif_pos h

/-- A number is read as an integer of 64 bits if it is written as one, and as a finite number
otherwise. -/
theorem ofNumber_cases (n : JsonNumber) :
    (∃ i, n = .int (WideInt.ofInt64 i) ∧ ofNumber n = .int i) ∨
      ∃ x : Binary64, x.isFinite = true ∧ ofNumber n = .float x ∧
        ∀ w, n = .int w → ¬Signed.Fits64 w.val := by
  cases n with
  | int w =>
    cases hw : w.toInt64? with
    | some i =>
      exact Or.inl
        ⟨i, congrArg _ (WideInt.eq_ofInt64_of_toInt64? hw), ofNumber_of_toInt64? hw⟩
    | none =>
      -- rounding must not make an infinity of it, which JSON could not show
      refine Or.inr ⟨Nearest.ofInt w.val, w.isFinite_ofInt, ofNumber_of_wide hw, ?_⟩
      intro w' heq hfits
      cases heq
      obtain ⟨i, hi⟩ := WideInt.exists_toInt64?_iff.2 hfits
      exact absurd (hw.symm.trans hi) (by simp)
  | real x finite => exact Or.inr ⟨x, finite, rfl, fun w heq => absurd heq (by simp)⟩

theorem ofJson_toJson_ofNumber (n : JsonNumber) :
    ofJson (toJson (ofNumber n)) = ofNumber n := by
  rcases ofNumber_cases n with ⟨i, _, hread⟩ | ⟨x, hfinite, hread, _⟩
  · rw [hread]
    exact ofJson_ofInt64 i
  · rw [hread, toJson_float hfinite]
    rfl

/-! ## Objects

An object is compared with what it shows by look-up. It becomes a handle by a test that is loose on
purpose, and a shown handle passes it with the same hash; a record fails it both times, since
its members are the same.
-/

/-- The members of an object make it a handle: a hash that can be used, and a class name. -/
def Handles (members : List (String × Json)) (hash : Int64) (className : String) : Prop :=
  (Entries.find? hashKey members).bind handleOfJson? = some hash ∧
    (Entries.find? classNameKey members).bind Json.str? = some className

/-- What a handle has besides its hash and its class name. -/
def otherMembers (fields : Table Json) : Table Json := (fields.erase hashKey).erase classNameKey

variable {members : List (String × Json)} {fields : Table Json} {hash : Int64} {className : String}

theorem get?_otherMembers (fields : Table Json) (k : String) :
    (otherMembers fields).get? k
      = if k = classNameKey ∨ k = hashKey then none else fields.get? k := by
  unfold otherMembers
  rw [Table.get?_erase, Table.get?_erase]
  by_cases hclass : k = classNameKey
  · simp [hclass]
  · simp [hclass]

theorem get?_objectMembers (o : ObjectRef) (k : String) :
    (objectMembers o).get? k
      = if k = classNameKey then some (.str o.className)
        else if k = hashKey then some (Json.ofInt64 o.hash) else o.attrs.get? k := by
  unfold objectMembers
  rw [Table.get?_insert, Table.get?_insert]

theorem ofMembers_entries_of_handles (h : Handles fields.entries hash className) :
    ofMembers fields.entries = .object ⟨hash, className, otherMembers fields⟩ := by
  obtain ⟨hhash, hclass⟩ := h
  unfold ofMembers
  rw [Table.ofList_entries]
  dsimp only [Table.get?]
  rw [hhash, hclass]
  rfl

theorem ofMembers_entries_of_not_handles
    (h : ∀ hash className, ¬Handles fields.entries hash className) :
    ofMembers fields.entries = .record fields := by
  unfold ofMembers
  rw [Table.ofList_entries]
  dsimp only [Table.get?]
  split
  · next hash className hhash hclass => exact absurd ⟨hhash, hclass⟩ (h hash className)
  · rfl

theorem ofMembers_eq_ofMembers_entries (members : List (String × Json)) :
    ofMembers members = ofMembers (Table.ofList members).entries := by
  unfold ofMembers
  rw [Table.ofList_entries]

/-- An object is a handle or a record. -/
theorem ofMembers_cases (fields : Table Json) :
    (∃ hash className, Handles fields.entries hash className ∧
      ofMembers fields.entries = .object ⟨hash, className, otherMembers fields⟩) ∨
    ((∀ hash className, ¬Handles fields.entries hash className) ∧
      ofMembers fields.entries = .record fields) := by
  by_cases h : ∃ hash className, Handles fields.entries hash className
  · obtain ⟨hash, className, hhandles⟩ := h
    exact Or.inl ⟨hash, className, hhandles, ofMembers_entries_of_handles hhandles⟩
  · have hnone : ∀ hash className, ¬Handles fields.entries hash className :=
      fun hash className hhandles => h ⟨hash, className, hhandles⟩
    exact Or.inr ⟨hnone, ofMembers_entries_of_not_handles hnone⟩

/-- A handle that is shown is the same handle, whatever its attributes say of its hash and class. -/
theorem handles_objectMembers (o : ObjectRef) :
    Handles (objectMembers o).entries o.hash o.className := by
  have hhash : (objectMembers o).get? hashKey = some (Json.ofInt64 o.hash) := by
    rw [get?_objectMembers, if_neg (by decide), if_pos rfl]
  have hclass : (objectMembers o).get? classNameKey = some (.str o.className) := by
    rw [get?_objectMembers, if_pos rfl]
  unfold Table.get? at hhash hclass
  refine ⟨?_, ?_⟩
  · rw [hhash]
    exact WideInt.toInt64?_ofInt64 o.hash
  · rw [hclass]
    rfl

/-- A handle is read back without the attributes that its own hash and class name cover. -/
theorem ofJson_toJson_object (o : ObjectRef) :
    ofJson (toJson (.object o)) = .object { o with attrs := otherMembers o.attrs } := by
  have hattrs : otherMembers (objectMembers o) = otherMembers o.attrs := by
    -- the members that differ are the two that are taken out again
    refine Table.ext_find? fun k => ?_
    rw [get?_otherMembers, get?_otherMembers, get?_objectMembers]
    by_cases hclass : k = classNameKey
    · simp [hclass]
    · by_cases hhash : k = hashKey
      · simp [hhash]
      · simp [hclass, hhash]
  show ofMembers (objectMembers o).entries = _
  rw [ofMembers_entries_of_handles (handles_objectMembers o), hattrs]

theorem ofJson_toJson_record (h : ∀ hash className, ¬Handles fields.entries hash className) :
    ofJson (toJson (.record fields)) = .record fields :=
  ofMembers_entries_of_not_handles h

theorem otherMembers_otherMembers (fields : Table Json) :
    otherMembers (otherMembers fields) = otherMembers fields := by
  refine Table.ext_find? fun k => ?_
  rw [get?_otherMembers, get?_otherMembers]
  split <;> rfl

theorem ofJson_toJson_ofMembers (members : List (String × Json)) :
    ofJson (toJson (ofMembers members)) = ofMembers members := by
  rw [ofMembers_eq_ofMembers_entries]
  rcases ofMembers_cases (Table.ofList members) with ⟨hash, className, _, hread⟩ | ⟨hnone, hread⟩
  · rw [hread, ofJson_toJson_object, otherMembers_otherMembers]
  · rw [hread, ofJson_toJson_record hnone]

theorem get?_classNameKey_of_handles (h : Handles fields.entries hash className) :
    fields.get? classNameKey = some (.str className) := by
  obtain ⟨j, hj, hstr⟩ := Option.bind_eq_some_iff.1 h.2
  cases j with
  | str s =>
    cases hstr
    exact hj
  | null | bool _ | num _ | arr _ | obj _ => exact absurd hstr (by simp [Json.str?])

/-- What a handle was read from is what it shows, but for its hash. -/
theorem objectMembers_of_handles (h : Handles fields.entries hash className) :
    objectMembers ⟨hash, className, otherMembers fields⟩
      = fields.insert hashKey (Json.ofInt64 hash) := by
  have hne : ¬hashKey = classNameKey := by decide
  refine Table.ext_find? fun k => ?_
  rw [get?_objectMembers, get?_otherMembers, Table.get?_insert]
  by_cases hclass : k = classNameKey
  · rw [if_pos hclass, hclass, if_neg (Ne.symm hne), get?_classNameKey_of_handles h]
  · by_cases hhash : k = hashKey
    · simp [hhash, hne]
    · simp [hclass, hhash]

/-- An object is shown with the members it had: a handle with its hash as an integer, a record with
nothing changed. -/
theorem toJson_ofMembers_cases (hsorted : Entries.Sorted members) :
    (∃ hash className, Handles members hash className ∧
      toJson (ofMembers members) = .obj (Entries.insert hashKey (Json.ofInt64 hash) members)) ∨
    ((∀ hash className, ¬Handles members hash className) ∧
      toJson (ofMembers members) = .obj members) := by
  rcases ofMembers_cases ⟨members, hsorted⟩ with ⟨hash, className, hhandles, hread⟩ | ⟨hnone, hread⟩
  · refine Or.inl ⟨hash, className, hhandles, ?_⟩
    rw [hread, toJson, objectMembers_of_handles hhandles]
    rfl
  · refine Or.inr ⟨hnone, ?_⟩
    rw [hread, toJson]

/-! ## Lists -/

theorem ofItems_eq_map (items : List Json) : ofItems items = items.map ofJson := by
  induction items with
  | nil => rfl
  | cons j items ih => rw [ofItems, ih, List.map_cons]

theorem toItems_eq_map (values : List RemoteValue) : toItems values = values.map toJson := by
  induction values with
  | nil => rfl
  | cons v values ih => rw [toItems, ih, List.map_cons]

theorem toJson_ofJson_arr (items : List Json) :
    toJson (ofJson (.arr items)) = .arr (items.map fun j => toJson (ofJson j)) := by
  rw [ofJson, toJson, ofItems_eq_map, toItems_eq_map, List.map_map]
  rfl

/-- Reading what a value that was read shows gives the value again. The induction goes into lists
only, as reading does. -/
theorem ofJson_toJson_ofJson (v : Json) : ofJson (toJson (ofJson v)) = ofJson v := by
  induction v using Json.induction_items with
  | null | bool b | str s => rfl
  | num n => exact ofJson_toJson_ofNumber n
  | obj members => exact ofJson_toJson_ofMembers members
  | arr items ih =>
    rw [toJson_ofJson_arr, ofJson, ofJson, ofItems_eq_map, ofItems_eq_map, List.map_map]
    exact congrArg RemoteValue.list (List.map_congr_left ih)

/-! ## Values that are shown as they were -/

/-- A number or an object that is shown as it was answered: an integer of 64 bits if it is an
integer, and written with such an integer as its handle if it is a handle. -/
def IsPlain : Json → Prop
  | .num (.int w) => Signed.Fits64 w.val
  | .obj members =>
    ∀ hash className, Handles members hash className →
      ∃ i, Entries.find? hashKey members = some (Json.ofInt64 i)
  | _ => True

theorem toJson_ofNumber_iff (n : JsonNumber) :
    toJson (ofNumber n) = .num n ↔ IsPlain (.num n) := by
  cases n with
  | real x finite => exact iff_of_true (toJson_float finite) trivial
  | int w =>
    rcases ofNumber_cases (.int w) with ⟨i, heq, hread⟩ | ⟨x, hfinite, hread, hwide⟩
    · cases heq
      rw [hread]
      exact iff_of_true rfl (WideInt.fits64_ofInt64 i)
    · rw [hread, toJson_float hfinite]
      exact iff_of_false (by simp) (hwide w rfl)

theorem toJson_ofMembers_iff (hsorted : Entries.Sorted members) :
    toJson (ofMembers members) = .obj members ↔ IsPlain (.obj members) := by
  rcases toJson_ofMembers_cases hsorted with ⟨hash, className, hhandles, hshown⟩ | ⟨hnone, hshown⟩
  · rw [hshown, Json.obj.injEq, hsorted.insert_eq_self_iff]
    constructor
    · exact fun hwritten _ _ _ => ⟨hash, hwritten⟩
    · intro hplain
      obtain ⟨i, hi⟩ := hplain hash className hhandles
      -- the integer that is written is the one that is read
      have hhash := hhandles.1
      rw [hi] at hhash
      cases (WideInt.toInt64?_ofInt64 i).symm.trans hhash
      exact hi
  · exact iff_of_true hshown fun hash className hhandles => absurd hhandles (hnone hash className)

/-- A value is shown as it was exactly if all that is reached through lists is. -/
theorem toJson_ofJson_iff {v : Json} (hcanonical : v.Canonical) :
    toJson (ofJson v) = v ↔ ∀ u, v.Reaches u → IsPlain u := by
  induction v using Json.induction_items with
  | null | bool b | str s =>
    rw [Json.forall_reaches_iff (by simp)]
    exact iff_of_true rfl trivial
  | num n =>
    rw [Json.forall_reaches_iff (by simp)]
    exact toJson_ofNumber_iff n
  | obj members =>
    rw [Json.forall_reaches_iff (by simp)]
    exact toJson_ofMembers_iff hcanonical.1
  | arr items ih =>
    have hitems := Json.canonicalItems_iff.1 hcanonical
    rw [toJson_ofJson_arr, Json.arr.injEq, Json.forall_reaches_arr trivial]
    calc (items.map fun j => toJson (ofJson j)) = items
        ↔ ∀ j ∈ items, toJson (ofJson j) = j := by
          rw [← List.map_inj_left, List.map_id']
      _ ↔ ∀ j ∈ items, ∀ u, j.Reaches u → IsPlain u :=
          forall₂_congr fun j hj => ih j hj (hitems j hj)

/-- **Rehydration loses nothing it shows.** What was read is read again from what it shows. What was
answered is shown as it was exactly if every integer reached through lists has 64 bits and every
object reached so that is a handle is written with such an integer. Lists are shown item by item;
an object is shown with all its members as they were, however deep they go, but for the hash of a
handle, which is shown as the integer it was read as. -/
theorem rehydration_loses_nothing :
    (∀ v : Json, ofJson (toJson (ofJson v)) = ofJson v) ∧
    (∀ v : Json, v.Canonical → (toJson (ofJson v) = v ↔ ∀ u, v.Reaches u → IsPlain u)) ∧
    (∀ items : List Json,
      toJson (ofJson (.arr items)) = .arr (items.map fun j => toJson (ofJson j))) ∧
    ∀ members : List (String × Json), Entries.Sorted members →
      ∃ members', toJson (ofJson (.obj members)) = .obj members' ∧
        (∀ k, k ≠ hashKey → Entries.find? k members' = Entries.find? k members) ∧
        (members' = members ∨
          ∃ hash className, Handles members hash className ∧
            members' = Entries.insert hashKey (Json.ofInt64 hash) members) := by
  refine ⟨ofJson_toJson_ofJson, fun v hcanonical => toJson_ofJson_iff hcanonical,
    toJson_ofJson_arr, fun members hsorted => ?_⟩
  rcases toJson_ofMembers_cases hsorted with ⟨hash, className, hhandles, hshown⟩ | ⟨_, hshown⟩
  · refine ⟨_, hshown, fun k hk => ?_, Or.inr ⟨hash, className, hhandles, rfl⟩⟩
    exact Entries.find?_insert_of_ne hk _ _
  · exact ⟨members, hshown, fun _ _ => rfl, Or.inl rfl⟩

/-- A handle whose member is a handle with a loose hash is shown as it was; alone, that member is
not, and shows what it is besides. -/
theorem rehydration_loses_nothing_nested :
    let view : Json := .obj [(classNameKey, .str "a.View"), (hashKey, .str " 7 ")]
    let owner : Json :=
      .obj [(classNameKey, .str "a.B"), (hashKey, Json.ofInt64 5), ("view", view)]
    toJson (ofJson (.arr [owner, .arr [Json.ofInt64 (-1)]]))
        = .arr [owner, .arr [Json.ofInt64 (-1)]] ∧
      toJson (ofJson (.arr [view])) ≠ .arr [view] ∧
      ∃ members', toJson (ofJson view) = .obj members' ∧
        Entries.find? classNameKey members' = some (.str "a.View") := by
  intro view owner
  obtain ⟨_, hiff, _, hobject⟩ := rehydration_loses_nothing
  have hview : Json.Canonical view := ⟨by decide, trivial, trivial, trivial⟩
  have howner : Json.Canonical owner := ⟨by decide, trivial, trivial, hview, trivial⟩
  have hlist : Json.Canonical (.arr [owner, .arr [Json.ofInt64 (-1)]]) :=
    ⟨howner, ⟨trivial, trivial⟩, trivial⟩
  have halone : Json.Canonical (.arr [view]) := ⟨hview, trivial⟩
  refine ⟨(hiff _ hlist).2 ?_, fun h => ?_, ?_⟩
  · rw [Json.forall_reaches_arr trivial]
    intro j hj u hu
    rcases List.mem_pair.1 hj with rfl | rfl
    · refine (Json.forall_reaches_iff (by simp [owner])).2 ?_ u hu
      exact fun _ _ _ => ⟨5, rfl⟩
    · cases hu with
      | self => trivial
      | item hmem hreach =>
        cases List.mem_singleton.1 hmem
        refine (Json.forall_reaches_iff (by simp [Json.ofInt64])).2 ?_ u hreach
        exact WideInt.fits64_ofInt64 (-1)
  · have hplain := (hiff _ halone).1 h view (.item List.mem_cons_self (.self view))
    obtain ⟨i, hi⟩ := hplain 7 "a.View" ⟨by cbv, rfl⟩
    exact absurd hi (by simp [Entries.find?, classNameKey, hashKey, Json.ofInt64])
  · obtain ⟨members', hshown, hkept, _⟩ := hobject _ hview.1
    exact ⟨members', hshown, hkept classNameKey (by decide)⟩

end RemoteValue

end KeywordRunner
