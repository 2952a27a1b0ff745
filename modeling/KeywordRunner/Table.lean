/-!
# Table — finite maps from names

A table is a list of entries whose keys strictly increase, so that two tables with the same
entries are the same table and iteration is in key order. `Entries` has the operations on bare
entry lists, with no assumption on their order; `Table` bundles a list with its ordering.

The view of both is look-up: `find?_insert` and `find?_erase` say what each operation does to it,
and `Table.ext_find?` that it determines the table.
-/

namespace KeywordRunner

namespace Entries

variable {α : Type}

def find? (k : String) : List (String × α) → Option α
  | [] => none
  | e :: es => if e.1 = k then some e.2 else find? k es

/-- Gives a key a value: in place when the key is there, else before the first greater key. -/
def insert (k : String) (v : α) : List (String × α) → List (String × α)
  | [] => [(k, v)]
  | e :: es =>
    if k < e.1 then (k, v) :: e :: es
    else if k = e.1 then (k, v) :: es
    else e :: insert k v es

def erase (k : String) (es : List (String × α)) : List (String × α) :=
  es.filter fun e => e.1 ≠ k

/-- The keys, in entry order. -/
def keys (es : List (String × α)) : List String := es.map (·.1)

/-- Entries inserted one after the other; the last value of a repeated key counts. -/
def insertAll (es : List (String × α)) (new : List (String × α)) : List (String × α) :=
  new.foldl (fun acc e => insert e.1 e.2 acc) es

def Sorted (es : List (String × α)) : Prop := es.Pairwise fun a b => a.1 < b.1

instance (es : List (String × α)) : Decidable (Sorted es) :=
  inferInstanceAs (Decidable (es.Pairwise fun a b => a.1 < b.1))

/-! ### Look-up after each operation -/

theorem find?_insert_self (k : String) (v : α) (es : List (String × α)) :
    find? k (insert k v es) = some v := by
  induction es with
  | nil => simp [insert, find?]
  | cons e es ih =>
    simp only [insert]
    split
    · simp [find?]
    · split
      · simp [find?]
      · next h => simp [find?, Ne.symm h, ih]

theorem find?_insert_of_ne {k k' : String} (h : k' ≠ k) (v : α) (es : List (String × α)) :
    find? k' (insert k v es) = find? k' es := by
  induction es with
  | nil => simp [insert, find?, Ne.symm h]
  | cons e es ih =>
    simp only [insert]
    split
    · simp [find?, Ne.symm h]
    · split
      · next _ he => subst he; simp [find?, Ne.symm h]
      · simp [find?, ih]

/-- Inserting changes the value of its own key only. -/
theorem find?_insert (k k' : String) (v : α) (es : List (String × α)) :
    find? k' (insert k v es) = if k' = k then some v else find? k' es := by
  split
  · next h => subst h; exact find?_insert_self _ _ _
  · next h => exact find?_insert_of_ne h _ _

theorem find?_erase (k k' : String) (es : List (String × α)) :
    find? k' (erase k es) = if k' = k then none else find? k' es := by
  induction es with
  | nil => simp [erase, find?]
  | cons e es ih =>
    have ih' : find? k' (es.filter fun e => e.1 ≠ k) = _ := ih
    simp only [erase, List.filter_cons]
    by_cases he : e.1 = k
    · simp only [he, ne_eq, not_true_eq_false, decide_false, Bool.false_eq_true, if_false]
      rw [ih']
      by_cases hk : k' = k
      · simp [hk]
      · simp [hk, find?, he, Ne.symm hk]
    · simp only [ne_eq, he, not_false_eq_true, decide_true, if_true, find?]
      rw [ih']
      by_cases hk : k' = k
      · subst hk; simp [he]
      · simp [hk]

theorem find?_append (k : String) (es ds : List (String × α)) :
    find? k (es ++ ds) = (find? k es).or (find? k ds) := by
  induction es with
  | nil => rfl
  | cons e es ih =>
    rw [List.cons_append]
    by_cases h : e.1 = k
    · rw [find?, find?, if_pos h, if_pos h, Option.some_or]
    · rw [find?, find?, if_neg h, if_neg h, ih]

theorem mem_of_find?_eq_some {k : String} {v : α} {es : List (String × α)}
    (h : find? k es = some v) : (k, v) ∈ es := by
  induction es with
  | nil => exact absurd h (by simp [find?])
  | cons e es ih =>
    by_cases hk : e.1 = k
    · rw [find?, if_pos hk] at h
      cases h
      rw [← hk]
      exact List.mem_cons_self
    · rw [find?, if_neg hk] at h
      exact List.mem_cons_of_mem e (ih h)

theorem isSome_find?_iff {k : String} {es : List (String × α)} :
    (find? k es).isSome = true ↔ k ∈ keys es := by
  induction es with
  | nil => exact ⟨fun h => absurd h (by simp [find?]), fun h => absurd h List.not_mem_nil⟩
  | cons e es ih =>
    by_cases hk : e.1 = k
    · simp [find?, keys, hk]
    · rw [find?, if_neg hk, ih, keys, keys, List.map_cons, List.mem_cons]
      exact ⟨Or.inr, fun h => h.resolve_left (Ne.symm hk)⟩

/-- Of several entries of a key the last one counts, hence the first one seen from the end. -/
theorem find?_insertAll (k : String) (es new : List (String × α)) :
    find? k (insertAll es new) = (find? k new.reverse).or (find? k es) := by
  induction new generalizing es with
  | nil => rfl
  | cons e new ih =>
    have hstep : insertAll es (e :: new) = insertAll (insert e.1 e.2 es) new := rfl
    have hlast : find? k [e] = if k = e.1 then some e.2 else none := by
      by_cases h : e.1 = k
      · rw [find?, if_pos h, if_pos h.symm]
      · rw [find?, if_neg h, if_neg (Ne.symm h), find?]
    rw [hstep, ih, find?_insert, List.reverse_cons, find?_append, hlast, Option.or_assoc]
    by_cases h : k = e.1
    · rw [if_pos h, if_pos h, Option.some_or]
    · rw [if_neg h, if_neg h, Option.none_or]

/-! ### Order -/

theorem mem_insert {k : String} {v : α} {es : List (String × α)} {e : String × α}
    (h : e ∈ insert k v es) : e = (k, v) ∨ e ∈ es := by
  induction es with
  | nil => simpa [insert] using h
  | cons d es ih =>
    simp only [insert] at h
    split at h
    · simpa using h
    · split at h
      · rcases List.mem_cons.1 h with h | h
        · exact .inl h
        · exact .inr (List.mem_cons_of_mem _ h)
      · rcases List.mem_cons.1 h with h | h
        · exact .inr (h ▸ List.mem_cons_self ..)
        · exact (ih h).imp_right (List.mem_cons_of_mem _)

theorem Sorted.insert {es : List (String × α)} (h : Sorted es) (k : String) (v : α) :
    Sorted (Entries.insert k v es) := by
  induction es with
  | nil => simp [Entries.insert, Sorted]
  | cons e es ih =>
    obtain ⟨hall, htail⟩ := List.pairwise_cons.1 h
    simp only [Entries.insert]
    split
    · next hlt =>
      refine List.pairwise_cons.2 ⟨?_, h⟩
      intro a ha
      rcases List.mem_cons.1 ha with ha | ha
      · exact ha ▸ hlt
      · exact String.lt_trans hlt (hall a ha)
    · split
      · next _ heq =>
        exact List.pairwise_cons.2 ⟨fun a ha => heq ▸ hall a ha, htail⟩
      · next hlt hne =>
        refine List.pairwise_cons.2 ⟨?_, ih htail⟩
        intro a ha
        rcases mem_insert ha with ha | ha
        · rw [ha]
          exact Std.lt_of_le_of_ne (String.not_lt.1 hlt) (Ne.symm hne)
        · exact hall a ha

theorem Sorted.erase {es : List (String × α)} (h : Sorted es) (k : String) :
    Sorted (Entries.erase k es) :=
  List.Pairwise.filter _ h

theorem Sorted.insertAll {es : List (String × α)} (h : Sorted es) (new : List (String × α)) :
    Sorted (Entries.insertAll es new) := by
  induction new generalizing es with
  | nil => exact h
  | cons e new ih => exact ih (h.insert e.1 e.2)

theorem find?_eq_none_of_lt {k : String} {es : List (String × α)}
    (h : ∀ e ∈ es, k < e.1) : find? k es = none := by
  induction es with
  | nil => rfl
  | cons e es ih =>
    have hk : e.1 ≠ k := fun heq => String.lt_irrefl k (heq ▸ h e (List.mem_cons_self ..))
    simp [find?, hk, ih fun a ha => h a (List.mem_cons_of_mem _ ha)]

/-- In an ordered list no entry hides another. -/
theorem Sorted.find?_eq_some_iff {es : List (String × α)} (h : Sorted es) {k : String} {v : α} :
    find? k es = some v ↔ (k, v) ∈ es := by
  induction es with
  | nil => simp [find?]
  | cons e es ih =>
    obtain ⟨hfirst, hlater⟩ := List.pairwise_cons.1 h
    rw [find?, List.mem_cons]
    by_cases hk : e.1 = k
    · have hnot : (k, v) ∉ es := fun hmem => String.lt_irrefl k (hk ▸ hfirst (k, v) hmem)
      rw [if_pos hk, Option.some_inj]
      constructor
      · intro hv
        exact Or.inl (Prod.ext hk.symm hv.symm)
      · intro hor
        rcases hor with heq | hmem
        · rw [← heq]
        · exact absurd hmem hnot
    · rw [if_neg hk, ih hlater]
      constructor
      · exact Or.inr
      · intro hor
        rcases hor with heq | hmem
        · exact absurd (congrArg Prod.fst heq).symm hk
        · exact hmem

/-- Entry lists in order are determined by look-up. -/
theorem Sorted.ext_find? {as bs : List (String × α)} (ha : Sorted as) (hb : Sorted bs)
    (h : ∀ k, find? k as = find? k bs) : as = bs := by
  induction as generalizing bs with
  | nil =>
    cases bs with
    | nil => rfl
    | cons b bs => simpa [find?] using h b.1
  | cons a as ih =>
    obtain ⟨ha1, ha2⟩ := List.pairwise_cons.1 ha
    cases bs with
    | nil => simpa [find?] using h a.1
    | cons b bs =>
      obtain ⟨hb1, hb2⟩ := List.pairwise_cons.1 hb
      have key : a.1 = b.1 := by
        apply Classical.byContradiction
        intro hne
        by_cases hlt : a.1 < b.1
        · have hnone : find? a.1 bs = none :=
            find?_eq_none_of_lt fun e he => String.lt_trans hlt (hb1 e he)
          simpa [find?, Ne.symm hne, hnone] using h a.1
        · have hlt' : b.1 < a.1 := Std.lt_of_le_of_ne (String.not_lt.1 hlt) (Ne.symm hne)
          have hnone : find? b.1 as = none :=
            find?_eq_none_of_lt fun e he => String.lt_trans hlt' (ha1 e he)
          simpa [find?, hne, hnone] using h b.1
      have value : a.2 = b.2 := by simpa [find?, key] using h a.1
      have tails : as = bs := by
        apply ih ha2 hb2
        intro k
        by_cases hk : a.1 = k
        · rw [find?_eq_none_of_lt fun e he => hk ▸ ha1 e he,
            find?_eq_none_of_lt fun e he => hk ▸ key ▸ hb1 e he]
        · simpa [find?, hk, key ▸ hk] using h k
      rw [tails, Prod.ext key value]

end Entries

/-- A finite map from names to values, its entries in key order. -/
structure Table (α : Type) where
  entries : List (String × α)
  sorted : Entries.Sorted entries

namespace Table

variable {α : Type}

def empty : Table α := ⟨[], List.Pairwise.nil⟩

instance : EmptyCollection (Table α) := ⟨empty⟩
instance : Inhabited (Table α) := ⟨empty⟩

def get? (t : Table α) (k : String) : Option α := Entries.find? k t.entries

def contains (t : Table α) (k : String) : Bool := (t.get? k).isSome

def insert (t : Table α) (k : String) (v : α) : Table α :=
  ⟨Entries.insert k v t.entries, t.sorted.insert k v⟩

def erase (t : Table α) (k : String) : Table α :=
  ⟨Entries.erase k t.entries, t.sorted.erase k⟩

/-- Inserts entries one after the other; the last value of a repeated key counts. -/
def insertAll (t : Table α) (es : List (String × α)) : Table α :=
  ⟨Entries.insertAll t.entries es, t.sorted.insertAll es⟩

def ofList (es : List (String × α)) : Table α := empty.insertAll es

/-- The keys, increasing. -/
def keys (t : Table α) : List String := Entries.keys t.entries

def values (t : Table α) : List α := t.entries.map (·.2)

def size (t : Table α) : Nat := t.entries.length

def isEmpty (t : Table α) : Bool := t.entries.isEmpty

/-! ### Look-up after each operation -/

@[simp] theorem get?_empty (k : String) : (∅ : Table α).get? k = none := rfl

theorem get?_insert (t : Table α) (k k' : String) (v : α) :
    (t.insert k v).get? k' = if k' = k then some v else t.get? k' :=
  Entries.find?_insert k k' v t.entries

theorem get?_erase (t : Table α) (k k' : String) :
    (t.erase k).get? k' = if k' = k then none else t.get? k' :=
  Entries.find?_erase k k' t.entries

theorem get?_insertAll (t : Table α) (es : List (String × α)) (k : String) :
    (t.insertAll es).get? k = (Entries.find? k es.reverse).or (t.get? k) :=
  Entries.find?_insertAll k t.entries es

/-- What a name is given after entries are inserted comes from them, or was there before. -/
theorem mem_or_of_get?_insertAll {t : Table α} {es : List (String × α)} {k : String} {v : α}
    (h : (t.insertAll es).get? k = some v) : (k, v) ∈ es ∨ t.get? k = some v := by
  rw [get?_insertAll, Option.or_eq_some_iff] at h
  exact h.imp (fun hes => List.mem_reverse.1 (Entries.mem_of_find?_eq_some hes)) And.right

@[simp] theorem contains_insert (t : Table α) (k k' : String) (v : α) :
    (t.insert k v).contains k' = (k' == k || t.contains k') := by
  rw [contains, contains, get?_insert]
  by_cases h : k' = k
  · simp [h]
  · simp [h]

theorem contains_insertAll_iff {t : Table α} {k : String} {es : List (String × α)} :
    (t.insertAll es).contains k = true ↔ k ∈ Entries.keys es ∨ t.contains k = true := by
  have hreverse : k ∈ Entries.keys es.reverse ↔ k ∈ Entries.keys es := by
    rw [Entries.keys, List.map_reverse, List.mem_reverse, Entries.keys]
  rw [contains, get?_insertAll, Option.isSome_or, Bool.or_eq_true, Entries.isSome_find?_iff,
    hreverse, contains]

theorem contains_insertAll {t : Table α} {k : String} (es : List (String × α))
    (h : t.contains k = true) : (t.insertAll es).contains k = true :=
  contains_insertAll_iff.2 (Or.inr h)

theorem mem_keys {t : Table α} {k : String} : k ∈ t.keys ↔ ∃ v, t.get? k = some v := by
  constructor
  · intro hmem
    obtain ⟨e, he, rfl⟩ := List.mem_map.1 hmem
    exact ⟨e.2, t.sorted.find?_eq_some_iff.2 he⟩
  · rintro ⟨v, hv⟩
    exact List.mem_map.2 ⟨(k, v), t.sorted.find?_eq_some_iff.1 hv, rfl⟩

theorem mem_values {t : Table α} {v : α} : v ∈ t.values ↔ ∃ k, t.get? k = some v := by
  constructor
  · intro hmem
    obtain ⟨e, he, rfl⟩ := List.mem_map.1 hmem
    exact ⟨e.1, t.sorted.find?_eq_some_iff.2 he⟩
  · rintro ⟨k, hk⟩
    exact List.mem_map.2 ⟨(k, v), t.sorted.find?_eq_some_iff.1 hk, rfl⟩

theorem pairwise_keys (t : Table α) : t.keys.Pairwise (· < ·) := List.pairwise_map.2 t.sorted

/-- A table is determined by look-up. -/
theorem ext_find? {s t : Table α} (h : ∀ k, s.get? k = t.get? k) : s = t := by
  have hs := s.sorted.ext_find? t.sorted h
  cases s
  cases t
  cases hs
  rfl

end Table

end KeywordRunner
