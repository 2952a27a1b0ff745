import KeywordRunner.Proofs.Json.Scalars

/-!
# Proofs.Json.Values — documents come back from their text

A reader of containers meets the items that a printer wrote, one after the other, whatever their
kind: `readItems_write` is the induction over them, and `readItems_keeps` the one over any text that
is read. Values then go by their depth, which is how the reader recurses.

* **`readValue_write`** — a value that is nested no deeper than the reader admits comes back.
* **`readValue_fits`** — what a reader gives is nested no deeper, and its members are in key order.
-/

namespace KeywordRunner

/-! ## Members in key order -/

namespace Entries

variable {α : Type}

theorem insert_of_last {k : String} (v : α) {es : List (String × α)} (h : ∀ e ∈ es, e.1 < k) :
    insert k v es = es ++ [(k, v)] := by
  induction es with
  | nil => rfl
  | cons e es ih =>
    have hlt : e.1 < k := h e List.mem_cons_self
    have hafter : ¬k < e.1 := String.lt_asymm hlt
    have hne : ¬k = e.1 := fun heq => String.lt_irrefl k (heq ▸ hlt)
    rw [insert, if_neg hafter, if_neg hne, ih fun a ha => h a (List.mem_cons_of_mem e ha),
      List.cons_append]

/-- Entries that come in order stay as they come. -/
theorem insertAll_of_sorted {es new : List (String × α)} (h : Sorted (es ++ new)) :
    insertAll es new = es ++ new := by
  induction new generalizing es with
  | nil => exact (List.append_nil es).symm
  | cons e new ih =>
    have hsplit : es ++ e :: new = (es ++ [e]) ++ new := by
      rw [List.append_assoc, List.singleton_append]
    have hlast : ∀ a ∈ es, a.1 < e.1 := fun a ha =>
      (List.pairwise_append.1 h).2.2 a ha e List.mem_cons_self
    have hstep : insertAll es (e :: new) = insertAll (insert e.1 e.2 es) new := rfl
    rw [hsplit] at h ⊢
    rw [hstep, insert_of_last e.2 hlast, ih h]

end Entries

namespace Json

variable {ε α β σ : Type}

/-! ## Properties of a value, item by item -/

mutual

/-- The numbers inside a value that are no integers. -/
def reals : Json → List JsonNumber
  | .num (.real x finite) => [.real x finite]
  | .arr items => realsItems items
  | .obj members => realsMembers members
  | _ => []

def realsItems : List Json → List JsonNumber
  | [] => []
  | j :: js => reals j ++ realsItems js

def realsMembers : List (String × Json) → List JsonNumber
  | [] => []
  | (_, j) :: ms => reals j ++ realsMembers ms

end

theorem reals_subset_items {j : Json} {js : List Json} (h : j ∈ js) :
    ∀ n ∈ j.reals, n ∈ realsItems js := by
  intro n hn
  induction js with
  | nil => exact absurd h List.not_mem_nil
  | cons i js ih =>
    rw [realsItems]
    rcases List.mem_cons.1 h with rfl | h
    · exact List.mem_append_left _ hn
    · exact List.mem_append_right _ (ih h)

theorem reals_subset_members {m : String × Json} {ms : List (String × Json)} (h : m ∈ ms) :
    ∀ n ∈ m.2.reals, n ∈ realsMembers ms := by
  intro n hn
  induction ms with
  | nil => exact absurd h List.not_mem_nil
  | cons i ms ih =>
    rw [realsMembers]
    rcases List.mem_cons.1 h with rfl | h
    · exact List.mem_append_left _ hn
    · exact List.mem_append_right _ (ih h)

theorem depthItems_le {js : List Json} {d : Nat} :
    depthItems js ≤ d ↔ ∀ j ∈ js, j.depth ≤ d := by
  induction js with
  | nil => simp [depthItems]
  | cons j js ih => rw [depthItems, Nat.max_le, ih, List.forall_mem_cons]

theorem depthMembers_le {ms : List (String × Json)} {d : Nat} :
    depthMembers ms ≤ d ↔ ∀ m ∈ ms, m.2.depth ≤ d := by
  induction ms with
  | nil => simp [depthMembers]
  | cons m ms ih => rw [depthMembers, Nat.max_le, ih, List.forall_mem_cons]

theorem canonicalItems_iff {js : List Json} : CanonicalItems js ↔ ∀ j ∈ js, j.Canonical := by
  induction js with
  | nil => simp [CanonicalItems]
  | cons j js ih => rw [CanonicalItems, ih, List.forall_mem_cons]

theorem canonicalMembers_iff {ms : List (String × Json)} :
    CanonicalMembers ms ↔ ∀ m ∈ ms, m.2.Canonical := by
  induction ms with
  | nil => simp [CanonicalMembers]
  | cons m ms ih => rw [CanonicalMembers, ih, List.forall_mem_cons]

theorem writeItems_eq (js : List Json) : writeItems js = js.flatMap fun j => ',' :: write j := by
  induction js with
  | nil => rfl
  | cons j js ih => rw [writeItems, ih, List.flatMap_cons, List.cons_append]

/-- A member as text. -/
def writeMember (m : String × Json) : List Char := writeString m.1 ++ ':' :: write m.2

theorem writeMember_append (m : String × Json) (rest : List Char) :
    writeMember m ++ rest = writeString m.1 ++ ':' :: (write m.2 ++ rest) := by
  rw [writeMember, List.append_assoc, List.cons_append]

theorem writeMembers_eq (ms : List (String × Json)) :
    writeMembers ms = ms.flatMap fun m => ',' :: writeMember m := by
  induction ms with
  | nil => rfl
  | cons m ms ih =>
    rw [writeMembers, ih, List.flatMap_cons, List.cons_append, writeMember, List.append_assoc,
      List.cons_append]

theorem write_arr_cons (j : Json) (js : List Json) (rest : List Char) :
    write (.arr (j :: js)) ++ rest
      = '[' :: (write j ++ ((js.flatMap fun x => ',' :: write x) ++ ']' :: rest)) := by
  rw [write, writeItems_eq, List.cons_append, List.append_assoc, List.append_assoc,
    List.singleton_append]

theorem write_obj_cons (m : String × Json) (ms : List (String × Json)) (rest : List Char) :
    write (.obj (m :: ms)) ++ rest
      = '\x7b' :: (writeMember m ++
          ((ms.flatMap fun x => ',' :: writeMember x) ++ '\x7d' :: rest)) := by
  have hmember : write (.obj (m :: ms))
      = '\x7b' :: (writeMember m ++ (writeMembers ms ++ ['\x7d'])) := by
    rw [write, writeMember, List.append_assoc, List.cons_append]
  rw [hmember, writeMembers_eq, List.cons_append, List.append_assoc, List.append_assoc,
    List.singleton_append]

/-! ## Reading items -/

section Items

variable {close : Char} {item : σ → JsonReader ε σ} {s s' : σ} {cs rest tail budget : List Char}

theorem skipSpace_of_ne {c : Char} (h : isSpace c = false) (rest : List Char) :
    skipSpace (c :: rest) = c :: rest :=
  List.dropWhile_cons_of_neg (by simp [h])

theorem readItems_comma (h : item s cs = .ok (s', tail)) (htail : skipSpace tail = ',' :: rest)
    (b : Char) : readItems close item (b :: budget) s cs = readItems close item budget s' rest := by
  rw [readItems, h]
  dsimp only
  rw [htail]
  exact if_pos rfl

theorem readItems_close (hcomma : close ≠ ',') (h : item s cs = .ok (s', tail))
    (htail : skipSpace tail = close :: rest) (b : Char) :
    readItems close item (b :: budget) s cs = .ok (s', rest) := by
  rw [readItems, h]
  dsimp only
  rw [htail]
  dsimp only
  rw [if_neg hcomma, if_pos rfl]

/-- Items come back together when each of them comes back in the state that the ones before it
lead to. What an item leaves of its own text can only be blanks. -/
theorem readItems_write (text : β → List Char) (next : σ → β → σ)
    (hcomma : close ≠ ',') (hspace : isSpace close = false)
    (hends : ∀ rest, Ends (close :: rest)) (b : β) (bs : List β)
    (s : σ)
    (hitem : ∀ before x after, b :: bs = before ++ x :: after → ∀ rest, Ends rest →
      ∃ tail, item (before.foldl next s) (text x ++ rest)
          = .ok (next (before.foldl next s) x, tail) ∧ skipSpace tail = skipSpace rest)
    (hbudget : bs.length < budget.length) (rest : List Char) :
    readItems close item budget s
        (text b ++ ((bs.flatMap fun x => ',' :: text x) ++ close :: rest))
      = .ok ((b :: bs).foldl next s, rest) := by
  obtain ⟨c, budget, rfl⟩ :=
    List.exists_cons_of_length_pos (Nat.lt_of_le_of_lt (Nat.zero_le _) hbudget)
  induction bs generalizing b budget s c with
  | nil =>
    obtain ⟨tail, hlast, htail⟩ := hitem [] b [] rfl _ (hends rest)
    exact readItems_close hcomma hlast (htail.trans (skipSpace_of_ne hspace rest)) c
  | cons a bs ih =>
    obtain ⟨tail, hfirst, htail⟩ := hitem [] b (a :: bs) rfl
      (',' :: (text a ++ ((bs.flatMap fun x => ',' :: text x) ++ close :: rest))) (ends_comma _)
    rw [List.foldl_nil] at hfirst
    rw [List.flatMap_cons, List.cons_append, List.cons_append, List.append_assoc,
      readItems_comma hfirst (htail.trans (skipSpace_of_ne rfl _)) c]
    have hlength : bs.length < budget.length := by
      rw [List.length_cons, List.length_cons] at hbudget
      omega
    obtain ⟨c', budget', rfl⟩ :=
      List.exists_cons_of_length_pos (Nat.lt_of_le_of_lt (Nat.zero_le _) hlength)
    refine ih a (next s b) (fun before x after hsplit => ?_) c' budget' hlength
    exact hitem (b :: before) x after (by rw [hsplit, List.cons_append])

/-- There are no more items than characters. -/
theorem length_le_length_flatMap (text : β → List Char) (bs : List β) :
    bs.length ≤ (bs.flatMap fun x => ',' :: text x).length := by
  induction bs with
  | nil => exact Nat.le_refl 0
  | cons b bs ih =>
    rw [List.flatMap_cons, List.length_append, List.length_cons, List.length_cons]
    omega

theorem readContainer_nil (hspace : isSpace close = false) (s : σ) (rest : List Char) :
    readContainer close item s (close :: rest) = .ok (s, rest) := by
  unfold readContainer
  rw [skipSpace_of_ne hspace]
  exact if_pos rfl

theorem readContainer_cons {c : Char} (hspace : isSpace c = false) (hclose : c ≠ close)
    (s : σ) (rest : List Char) :
    readContainer close item s (c :: rest) = readItems close item (c :: rest) s (c :: rest) := by
  unfold readContainer
  rw [skipSpace_of_ne hspace]
  exact if_neg hclose

/-- A container between brackets: its first item starts with no blank and no closing bracket. -/
theorem readContainer_write (text : β → List Char) (next : σ → β → σ)
    (hcomma : close ≠ ',') (hspace : isSpace close = false)
    (hends : ∀ rest, Ends (close :: rest)) (b : β) (bs : List β)
    (s : σ)
    (hitem : ∀ before x after, b :: bs = before ++ x :: after → ∀ rest, Ends rest →
      ∃ tail, item (before.foldl next s) (text x ++ rest)
          = .ok (next (before.foldl next s) x, tail) ∧ skipSpace tail = skipSpace rest)
    (hstart : ∃ c cs, text b = c :: cs ∧ isSpace c = false ∧ c ≠ close) (rest : List Char) :
    readContainer close item s
        (text b ++ ((bs.flatMap fun x => ',' :: text x) ++ close :: rest))
      = .ok ((b :: bs).foldl next s, rest) := by
  obtain ⟨c, cs, htext, hc, hne⟩ := hstart
  have hfirst : text b ++ ((bs.flatMap fun x => ',' :: text x) ++ close :: rest)
      = c :: (cs ++ ((bs.flatMap fun x => ',' :: text x) ++ close :: rest)) := by
    rw [htext, List.cons_append]
  have hlength := length_le_length_flatMap text bs
  rw [hfirst, readContainer_cons hc hne, ← hfirst]
  refine readItems_write text next hcomma hspace hends b bs s hitem ?_ rest
  rw [List.length_append, List.length_append, List.length_cons]
  omega

/-- What every item keeps holds at the end. -/
theorem readItems_keeps {P : σ → Prop}
    (hitem : ∀ s cs s' rest, P s → item s cs = .ok (s', rest) → P s') (hs : P s)
    (h : readItems close item budget s cs = .ok (s', rest)) : P s' := by
  induction budget generalizing s cs with
  | nil => exact absurd h (by simp [readItems])
  | cons b budget ih =>
    rw [readItems] at h
    split at h
    · exact absurd h (by simp)
    · next s₁ rest₁ hread =>
      have hs₁ : P s₁ := hitem s cs s₁ rest₁ hs hread
      split at h
      · exact absurd h (by simp)
      · split at h
        · exact ih hs₁ h
        · split at h
          · cases h
            exact hs₁
          · exact absurd h (by simp)

theorem readContainer_keeps {P : σ → Prop}
    (hitem : ∀ s cs s' rest, P s → item s cs = .ok (s', rest) → P s') (hs : P s)
    (h : readContainer close item s cs = .ok (s', rest)) : P s' := by
  unfold readContainer at h
  split at h
  · exact absurd h (by simp)
  · split at h
    · cases h
      exact hs
    · exact readItems_keeps hitem hs h

end Items

/-! ## Values written and read -/

theorem readsBack_of_reals {n : JsonNumber} (h : ∀ m ∈ (Json.num n).reals, m.ReadsBack) :
    n.ReadsBack := by
  cases n with
  | int i => exact JsonNumber.readsBack_int i
  | real x finite => exact h _ (by simp [reals])

theorem ne_of_numeral {c d : Char} (hc : c = '-' ∨ c.isDigit = true) (hminus : d ≠ '-')
    (hdigit : d.isDigit = false) : c ≠ d := by
  rintro rfl
  rcases hc with rfl | hc
  · exact hminus rfl
  · exact absurd hc (by simp [hdigit])

theorem isSpace_of_numeral {c : Char} (hc : c = '-' ∨ c.isDigit = true) : isSpace c = false := by
  have hspace := ne_of_numeral (d := ' ') hc (by decide) (by decide)
  have htab := ne_of_numeral (d := '\t') hc (by decide) (by decide)
  have hnewline := ne_of_numeral (d := '\n') hc (by decide) (by decide)
  have hreturn := ne_of_numeral (d := '\r') hc (by decide) (by decide)
  simp [isSpace, hspace, htab, hnewline, hreturn]

/-- No text of a value starts with a blank or a closing bracket. -/
theorem head_write {j : Json} (h : ∀ n ∈ j.reals, n.ReadsBack) :
    ∃ c cs, write j = c :: cs ∧ isSpace c = false ∧ c ≠ ']' := by
  cases j with
  | null => exact ⟨_, _, rfl, by decide, by decide⟩
  | bool b => cases b <;> exact ⟨_, _, rfl, by decide, by decide⟩
  | num n =>
    obtain ⟨numeral, hread, _⟩ := readsBack_of_reals h
    obtain ⟨c, cs, hwrite, hc⟩ := head_of_readNumeral? hread
    exact ⟨c, cs, hwrite, isSpace_of_numeral hc, ne_of_numeral hc (by decide) (by decide)⟩
  | str s => exact ⟨_, _, rfl, by decide, by decide⟩
  | arr items => cases items <;> exact ⟨_, _, rfl, by decide, by decide⟩
  | obj members =>
    cases members with
    | nil => exact ⟨_, _, rfl, by decide, by decide⟩
    | cons m ms => exact ⟨_, _, rfl, by decide, by decide⟩

theorem head_writeMember (m : String × Json) :
    ∃ c cs, writeMember m = c :: cs ∧ isSpace c = false ∧ c ≠ '\x7d' :=
  ⟨'"', _, rfl, by decide, by decide⟩

section Values

variable {array object : JsonReader ε Json} {cs rest : List Char}

/-- A minus sign or a digit starts a number and nothing else. -/
theorem readWith_number {c : Char} {n : JsonNumber} (hc : c = '-' ∨ c.isDigit = true)
    (h : readNumber (ε := ε) (c :: cs) = .ok (n, rest)) :
    readWith array object (c :: cs) = .ok (.num n, rest) := by
  have hne := fun d => ne_of_numeral (d := d) hc
  unfold readWith
  rw [skipSpace_of_ne (isSpace_of_numeral hc)]
  split
  · next heq => exact absurd heq (by simp)
  · next heq => exact absurd (List.cons.inj heq).1 (hne 'n' (by decide) (by decide))
  · next heq => exact absurd (List.cons.inj heq).1 (hne 't' (by decide) (by decide))
  · next heq => exact absurd (List.cons.inj heq).1 (hne 'f' (by decide) (by decide))
  · next heq => exact absurd (List.cons.inj heq).1 (hne '"' (by decide) (by decide))
  · next heq => exact absurd (List.cons.inj heq).1 (hne '[' (by decide) (by decide))
  · next heq => exact absurd (List.cons.inj heq).1 (hne '\x7b' (by decide) (by decide))
  · rw [h]
    rfl

theorem readWith_string (s : String) (rest : List Char) :
    readWith array object (writeString s ++ rest) = .ok (.str s, rest) := by
  have hread := readString_write (ε := ε) s rest
  rw [writeString_append] at hread ⊢
  show ((readString ('"' :: (s.toList.flatMap escapedChar ++ '"' :: rest))).map
    fun x => (Json.str x.1, x.2)) = _
  rw [hread]
  rfl

/-- Values that hold no others come back, whatever readers there are for containers. -/
theorem readWith_write {j : Json} (hdepth : j.depth = 0) (hreals : ∀ n ∈ j.reals, n.ReadsBack)
    (hends : Ends rest) : readWith array object (write j ++ rest) = .ok (j, rest) := by
  cases j with
  | null => rfl
  | bool b => cases b <;> rfl
  | num n =>
    have hread := readsBack_of_reals hreals
    have hnumber := readNumber_write (ε := ε) hread hends
    obtain ⟨numeral, hnumeral, _⟩ := hread
    obtain ⟨c, cs, hwrite, hc⟩ := head_of_readNumeral? hnumeral
    show readWith array object (writeNumber n ++ rest) = _
    rw [hwrite, List.cons_append] at hnumber ⊢
    exact readWith_number hc hnumber
  | str s => exact readWith_string s rest
  | arr items => exact absurd hdepth (by simp [depth])
  | obj members => exact absurd hdepth (by simp [depth])

end Values

/-- An array's inside, when each of its items comes back. -/
theorem readList_write (item : JsonReader ε Json) (js : List Json)
    (hitem : ∀ j ∈ js, ∀ rest, Ends rest → item (write j ++ rest) = .ok (j, rest))
    (hreals : ∀ j ∈ js, ∀ n ∈ j.reals, n.ReadsBack) (rest : List Char) :
    ∃ inside, write (.arr js) ++ rest = '[' :: inside ∧
      readList item inside = .ok (js, rest) := by
  unfold readList
  dsimp only
  cases js with
  | nil =>
    refine ⟨']' :: rest, rfl, ?_⟩
    rw [readContainer_nil (by decide)]
    rfl
  | cons j js =>
    refine ⟨_, write_arr_cons j js rest, ?_⟩
    rw [readContainer_write write (fun acc x => x :: acc) (by decide) (by decide) ends_bracket
      j js [] _ (head_write (hreals j List.mem_cons_self))]
    · -- the latest item came first
      show Except.ok ((List.foldl (fun acc x => x :: acc) [] (j :: js)).reverse, rest) = _
      rw [List.foldl_flip_cons_eq_append', List.append_nil, List.reverse_reverse]
    · intro before x after hsplit rest' hends
      rw [hitem x (hsplit ▸ List.mem_append_right _ List.mem_cons_self) rest' hends]
      exact ⟨rest', rfl, rfl⟩

/-- An object's inside, when each of its values comes back and its members are in order. -/
theorem readMembers_write (item : JsonReader ε Json) (ms : List (String × Json))
    (hitem : ∀ m ∈ ms, ∀ rest, Ends rest → item (write m.2 ++ rest) = .ok (m.2, rest))
    (hsorted : Entries.Sorted ms) (rest : List Char) :
    ∃ inside, write (.obj ms) ++ rest = '\x7b' :: inside ∧
      readMembers item inside = .ok (ms, rest) := by
  cases ms with
  | nil => exact ⟨_, rfl, readContainer_nil (by decide) [] rest⟩
  | cons m ms =>
    refine ⟨_, write_obj_cons m ms rest, ?_⟩
    unfold readMembers
    rw [readContainer_write writeMember (fun acc x => Entries.insert x.1 x.2 acc) (by decide)
      (by decide) ends_brace m ms [] _ (head_writeMember m)]
    · have hall : Entries.insertAll [] (m :: ms) = [] ++ m :: ms :=
        Entries.insertAll_of_sorted hsorted
      exact congrArg (fun acc => Except.ok (acc, rest)) hall
    · intro before x after hsplit rest' hends
      have hname : readName (ε := ε) (writeMember x ++ rest') = .ok (x.1, write x.2 ++ rest') := by
        unfold readName
        rw [writeMember_append, readString_write]
        rfl
      refine ⟨rest', ?_, rfl⟩
      rw [hname]
      show (item (write x.2 ++ rest') >>= _) = _
      rw [hitem x (hsplit ▸ List.mem_append_right _ List.mem_cons_self) rest' hends]
      rfl

/-- **A value comes back from its compact text** when it is nested no deeper than the reader admits
and its members are in key order. -/
theorem readValue_write {d : Nat} {j : Json} {rest : List Char} (hdepth : j.depth ≤ d)
    (hcanonical : j.Canonical) (hreals : ∀ n ∈ j.reals, n.ReadsBack) (hends : Ends rest) :
    readValue (ε := ε) d (write j ++ rest) = .ok (j, rest) := by
  induction d generalizing j rest with
  | zero => exact readWith_write (Nat.le_zero.1 hdepth) hreals hends
  | succ d ih =>
    by_cases hscalar : j.depth = 0
    · exact readWith_write hscalar hreals hends
    cases j with
    | arr js =>
      have hitems := depthItems_le.1 (Nat.le_of_succ_le_succ hdepth)
      have hinside := canonicalItems_iff.1 hcanonical
      have hnumbers := fun j hj n hn => hreals n (reals_subset_items (j := j) hj n hn)
      obtain ⟨inside, hwrite, hread⟩ := readList_write (readValue (ε := ε) d) js
        (fun j hj rest' hends' => ih (hitems j hj) (hinside j hj) (hnumbers j hj) hends')
        hnumbers rest
      rw [hwrite]
      show ((readList (readValue d) inside).map fun x => (Json.arr x.1, x.2)) = _
      rw [hread]
      rfl
    | obj ms =>
      obtain ⟨hsorted, hmembers⟩ := hcanonical
      have hvalues := depthMembers_le.1 (Nat.le_of_succ_le_succ hdepth)
      have hinside := canonicalMembers_iff.1 hmembers
      have hnumbers := fun m hm n hn => hreals n (reals_subset_members (m := m) hm n hn)
      obtain ⟨inside, hwrite, hread⟩ := readMembers_write (readValue (ε := ε) d) ms
        (fun m hm rest' hends' => ih (hvalues m hm) (hinside m hm) (hnumbers m hm) hends')
        hsorted rest
      rw [hwrite]
      show ((readMembers (readValue d) inside).map fun x => (Json.obj x.1, x.2)) = _
      rw [hread]
      rfl
    | null => exact absurd rfl hscalar
    | bool b => exact absurd rfl hscalar
    | num n => exact absurd rfl hscalar
    | str s => exact absurd rfl hscalar

/-! ## What is read -/

/-- A value that is nested no deeper than `d` and has its members in key order. -/
def Fits (d : Nat) (j : Json) : Prop := j.depth ≤ d ∧ j.Canonical

section Fits

variable {array object : JsonReader ε Json} {item : JsonReader ε Json} {d : Nat}
  {cs rest : List Char}

theorem map_eq_ok {γ δ : Type} {x : Except γ α} {f : α → δ} {b : δ} (h : x.map f = .ok b) :
    ∃ a, x = .ok a ∧ f a = b := by
  cases x with
  | error e => exact absurd h (by simp [Except.map])
  | ok a => exact ⟨a, rfl, Except.ok.inj h⟩

theorem ok_bind {γ δ : Type} (a : α) (f : α → Except γ δ) : (Except.ok a >>= f) = f a := rfl

theorem bind_eq_ok {γ δ : Type} {x : Except γ α} {f : α → Except γ δ} {b : δ}
    (h : x >>= f = .ok b) : ∃ a, x = .ok a ∧ f a = .ok b := by
  cases x with
  | error e => exact absurd h (by simp [bind, Except.bind])
  | ok a => exact ⟨a, rfl, h⟩

theorem readWord_eq {word : List Char} {value a : α}
    (h : readWord (ε := ε) word value cs = .ok (a, rest)) : a = value := by
  unfold readWord at h
  split at h
  · cases h
    rfl
  · exact absurd h (by simp)

/-- A value holds no others, or it is what a reader of containers gives. -/
theorem readWith_cases {j : Json} (h : readWith array object cs = .ok (j, rest)) :
    (j.depth = 0 ∧ j.Canonical) ∨ (∃ cs', array cs' = .ok (j, rest)) ∨
      ∃ cs', object cs' = .ok (j, rest) := by
  unfold readWith at h
  split at h
  · exact absurd h (by simp)
  · exact Or.inl (readWord_eq h ▸ ⟨rfl, trivial⟩)
  · exact Or.inl (readWord_eq h ▸ ⟨rfl, trivial⟩)
  · exact Or.inl (readWord_eq h ▸ ⟨rfl, trivial⟩)
  · obtain ⟨⟨s, tail⟩, _, hs⟩ := map_eq_ok h
    cases hs
    exact Or.inl ⟨rfl, trivial⟩
  · exact Or.inr (Or.inl ⟨_, h⟩)
  · exact Or.inr (Or.inr ⟨_, h⟩)
  · obtain ⟨⟨n, tail⟩, _, hn⟩ := map_eq_ok h
    cases hn
    exact Or.inl ⟨rfl, trivial⟩

theorem readList_fits {js : List Json} (hitem : ∀ cs j rest, item cs = .ok (j, rest) → j.Fits d)
    (h : readList item cs = .ok (js, rest)) : ∀ j ∈ js, j.Fits d := by
  unfold readList at h
  obtain ⟨⟨acc, tail⟩, hread, h⟩ := bind_eq_ok h
  cases h
  have hacc : ∀ j ∈ acc, j.Fits d := by
    refine readContainer_keeps (P := fun acc => ∀ j ∈ acc, j.Fits d) ?_
      (fun _ hj => absurd hj List.not_mem_nil) hread
    intro acc cs acc' rest' hbefore hstep
    obtain ⟨⟨x, tail'⟩, hx, hstep⟩ := bind_eq_ok hstep
    cases hstep
    exact List.forall_mem_cons.2 ⟨hitem cs x _ hx, hbefore⟩
  exact fun j hj => hacc j (List.mem_reverse.1 hj)

theorem readMembers_fits {ms : List (String × Json)}
    (hitem : ∀ cs j rest, item cs = .ok (j, rest) → j.Fits d)
    (h : readMembers item cs = .ok (ms, rest)) :
    Entries.Sorted ms ∧ ∀ m ∈ ms, m.2.Fits d := by
  refine readContainer_keeps (P := fun acc => Entries.Sorted acc ∧ ∀ m ∈ acc, m.2.Fits d) ?_
    ⟨List.Pairwise.nil, fun _ hm => absurd hm List.not_mem_nil⟩ h
  rintro acc cs acc' rest' ⟨hsorted, hbefore⟩ hstep
  obtain ⟨⟨name, tail⟩, _, hstep⟩ := bind_eq_ok hstep
  obtain ⟨⟨x, tail'⟩, hx, hstep⟩ := bind_eq_ok hstep
  cases hstep
  refine ⟨hsorted.insert name x, fun m hm => ?_⟩
  rcases Entries.mem_insert hm with rfl | hm
  · exact hitem tail x _ hx
  · exact hbefore m hm

end Fits

/-- **What a reader gives is nested no deeper than it admits**, and its members are in key order
whatever order they were written in. -/
theorem readValue_fits {d : Nat} {cs rest : List Char} {j : Json}
    (h : readValue (ε := ε) d cs = .ok (j, rest)) : j.Fits d := by
  induction d generalizing cs j rest with
  | zero =>
    rcases readWith_cases h with ⟨hdepth, hcanonical⟩ | ⟨_, hcs⟩ | ⟨_, hcs⟩
    · exact ⟨Nat.le_of_eq hdepth, hcanonical⟩
    · exact absurd hcs (by simp)
    · exact absurd hcs (by simp)
  | succ d ih =>
    rcases readWith_cases h with ⟨hdepth, hcanonical⟩ | ⟨cs', hcs⟩ | ⟨cs', hcs⟩
    · exact ⟨hdepth ▸ Nat.zero_le _, hcanonical⟩
    · obtain ⟨⟨js, tail⟩, hread, heq⟩ := map_eq_ok hcs
      cases heq
      have hitems := readList_fits (fun _ _ _ hx => ih hx) hread
      exact ⟨Nat.succ_le_succ (depthItems_le.2 fun j hj => (hitems j hj).1),
        canonicalItems_iff.2 fun j hj => (hitems j hj).2⟩
    · obtain ⟨⟨ms, tail⟩, hread, heq⟩ := map_eq_ok hcs
      cases heq
      obtain ⟨hsorted, hmembers⟩ := readMembers_fits (fun _ _ _ hx => ih hx) hread
      exact ⟨Nat.succ_le_succ (depthMembers_le.2 fun m hm => (hmembers m hm).1),
        hsorted, canonicalMembers_iff.2 fun m hm => (hmembers m hm).2⟩

end Json

end KeywordRunner
