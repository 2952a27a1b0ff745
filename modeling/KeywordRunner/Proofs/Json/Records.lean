import KeywordRunner.Json.Record
import KeywordRunner.Proofs.Json.Values

/-!
# Proofs.Json.Records — records come back from their text

A record is printed as an object whose members are its fields. Reading it takes one update after
the other, in the order of the members; `readRecord_write` puts them together for any fields, and
the laws on numbers and `null` are what its readers are made of.

* **`readRecord_write`** — a record comes back when the value of each field does.
* **`readRecord_keeps`** — what every field keeps holds of a record, in whatever shape it came.
-/

namespace KeywordRunner.Json

variable {ε α σ : Type} {cs rest : List Char}

/-! ## Fields of fixed kinds -/

/-- A natural number within the limit comes back. -/
theorem readNatural_write (limit : Nat) {i : WideInt} (h : 0 ≤ i.val ∧ i.val ≤ limit)
    (hends : Ends rest) :
    readNatural (ε := ε) limit (write (.num (.int i)) ++ rest) = .ok (i.val.toNat, rest) := by
  have hreads := JsonNumber.readsBack_int i
  have hnumber := readNumber_write (ε := ε) hreads hends
  obtain ⟨numeral, hnumeral, _⟩ := hreads
  obtain ⟨c, cs, hwrite, hc⟩ := head_of_readNumeral? hnumeral
  have hspace : isSpace c = false := isSpace_of_numeral hc
  show readNatural limit (writeNumber (.int i) ++ rest) = _
  rw [hwrite, List.cons_append] at hnumber ⊢
  unfold readNatural
  rw [skipSpace_of_ne hspace]
  dsimp only
  rw [if_pos hc, hnumber]
  exact if_pos h

/-- Where there is no `null`, the value comes back if it does by itself. -/
theorem readNullable_of_ne {reader : JsonReader ε α} {c : Char} {a : α}
    (hspace : isSpace c = false) (hc : c ≠ 'n') (h : reader (c :: cs) = .ok (a, rest)) :
    readNullable reader (c :: cs) = .ok (some a, rest) := by
  unfold readNullable
  rw [skipSpace_of_ne hspace]
  split
  · next heq => exact absurd (List.cons.inj heq).1 hc
  · rw [h]
    rfl

theorem readArray_write {d : Nat} {js : List Json} (hfits : ∀ j ∈ js, j.Fits d)
    (hreals : ∀ j ∈ js, ∀ n ∈ j.reals, n.ReadsBack) (rest : List Char) :
    readArray (ε := ε) (d + 1) (write (.arr js) ++ rest) = .ok (js, rest) := by
  obtain ⟨inside, hwrite, hread⟩ := readList_write (readValue (ε := ε) d) js
    (fun j hj rest' hends => readValue_write (hfits j hj).1 (hfits j hj).2 (hreals j hj) hends)
    hreals rest
  rw [hwrite]
  exact hread

theorem readNullable_eq_ok {reader : JsonReader ε α} {a : Option α}
    (h : readNullable reader cs = .ok (a, rest)) :
    a = none ∨ ∃ x cs', a = some x ∧ reader cs' = .ok (x, rest) := by
  unfold readNullable at h
  split at h
  · exact Or.inl (readWord_eq h)
  · obtain ⟨⟨x, tail⟩, hx, heq⟩ := map_eq_ok h
    cases heq
    exact Or.inr ⟨x, _, rfl, hx⟩

theorem readArray_fits {d : Nat} {js : List Json}
    (h : readArray (ε := ε) (d + 1) cs = .ok (js, rest)) : ∀ j ∈ js, j.Fits d := by
  rw [readArray] at h
  dsimp only at h
  split at h
  · exact readList_fits (fun _ _ _ hx => readValue_fits hx) h
  · exact absurd h (by simp)

/-! ## Records -/

variable {fields : List (Field ε σ)} {depth : Nat}

/-- One member: a field that was not met before takes its update. -/
theorem readField_write {f : Field ε σ} {update : σ → σ} {m : String × Json} {d : Draft σ}
    (hfind : fields.find? (fun f => f.name == m.1) = some f) (hnew : m.1 ∉ d.met)
    (hread : f.read depth (write m.2 ++ rest) = .ok (update, rest)) :
    readField fields depth d (writeMember m ++ rest)
      = .ok (⟨m.1 :: d.met, update d.value⟩, rest) := by
  have hmet : d.met.contains m.1 = false := by simpa using hnew
  unfold readField
  rw [writeMember_append, readString_write, ok_bind]
  dsimp only
  rw [hfind]
  dsimp only
  rw [hmet, if_neg Bool.false_ne_true]
  show ((f.read depth (write m.2 ++ rest)).map _) = _
  rw [hread]
  rfl

/-- What a record has come to after some members, each with its update. -/
def Draft.take (d : Draft σ) (u : (String × Json) × (σ → σ)) : Draft σ :=
  ⟨u.1.1 :: d.met, u.2 d.value⟩

theorem met_foldl_take (us : List ((String × Json) × (σ → σ))) (d : Draft σ) :
    (us.foldl Draft.take d).met = (us.map (·.1.1)).reverse ++ d.met := by
  induction us generalizing d with
  | nil => rfl
  | cons u us ih =>
    rw [List.foldl_cons, ih, List.map_cons, List.reverse_cons, List.append_assoc]
    rfl

theorem value_foldl_take (us : List ((String × Json) × (σ → σ))) (d : Draft σ) :
    (us.foldl Draft.take d).value = us.foldl (fun x u => u.2 x) d.value := by
  induction us generalizing d with
  | nil => rfl
  | cons u us ih => exact ih (d.take u)

/-- **A record comes back** when its members have different names and the value of each gives the
update of its field. -/
theorem readRecord_write {us : List ((String × Json) × (σ → σ))} (hne : us ≠ [])
    (hnodup : (us.map (·.1.1)).Nodup)
    (hread : ∀ u ∈ us, ∃ f, fields.find? (fun f => f.name == u.1.1) = some f ∧
      ∀ rest, Ends rest → f.read depth (write u.1.2 ++ rest) = .ok (u.2, rest))
    (initial : σ) (rest : List Char) :
    readRecord fields initial (depth + 1) (write (.obj (us.map (·.1))) ++ rest)
      = .ok (us.foldl (fun x u => u.2 x) initial, rest) := by
  obtain ⟨u, us, rfl⟩ := List.exists_cons_of_ne_nil hne
  have hmembers : ((us.map (·.1)).flatMap fun m => ',' :: writeMember m)
      = us.flatMap fun u => ',' :: writeMember u.1 := List.flatMap_map ..
  have hitem : ∀ before x after, u :: us = before ++ x :: after → ∀ rest, Ends rest →
      ∃ tail, readField fields depth (before.foldl Draft.take ⟨[], initial⟩)
          (writeMember x.1 ++ rest)
        = .ok ((before.foldl Draft.take ⟨[], initial⟩).take x, tail) ∧
          skipSpace tail = skipSpace rest := by
    intro before x after hsplit rest' hends
    obtain ⟨f, hfind, hvalue⟩ := hread x (hsplit ▸ List.mem_append_right _ List.mem_cons_self)
    refine ⟨rest', readField_write hfind ?_ (hvalue rest' hends), rfl⟩
    -- its name is none of those before it
    rw [hsplit, List.map_append, List.map_cons, List.nodup_append] at hnodup
    rw [met_foldl_take, List.append_nil, List.mem_reverse]
    exact fun hname => hnodup.2.2 x.1.1 hname x.1.1 List.mem_cons_self rfl
  have hstart := head_writeMember u.1
  have hinside := readContainer_write (fun u : (String × Json) × (σ → σ) => writeMember u.1)
    Draft.take (by decide : '\x7d' ≠ ',') (by decide) ends_brace u us ⟨[], initial⟩ hitem hstart
      rest
  rw [List.map_cons, write_obj_cons, hmembers]
  show (readContainer '\x7d' (readField fields depth) ⟨[], initial⟩ _).map
    (fun x => (x.1.value, x.2)) = _
  rw [hinside]
  exact congrArg (fun x => Except.ok (x, rest)) (value_foldl_take (u :: us) ⟨[], initial⟩)

/-- What the initial value has and the update of every field keeps holds of the record, whether
the text gives an object or an array. -/
theorem readRecord_keeps {P : σ → Prop} {initial x : σ}
    (hfields : ∀ f ∈ fields, ∀ cs update rest, f.read depth cs = .ok (update, rest) →
      ∀ x, P x → P (update x))
    (hinitial : P initial)
    (h : readRecord fields initial (depth + 1) cs = .ok (x, rest)) : P x := by
  rw [readRecord] at h
  dsimp only at h
  split at h
  · obtain ⟨⟨⟨later, value⟩, tail⟩, hread, heq⟩ := map_eq_ok h
    cases heq
    -- the fields still to come are among all of them
    refine (readContainer_keeps (P := fun d => (∀ f ∈ d.1, f ∈ fields) ∧ P d.2) ?_
      ⟨fun _ hf => hf, hinitial⟩ hread).2
    rintro ⟨later, value⟩ cs d' rest' ⟨hlater, hvalue⟩ hstep
    unfold readPositional at hstep
    split at hstep
    · exact absurd hstep (by simp)
    · next f fs heq =>
      dsimp only at heq
      subst heq
      obtain ⟨⟨update, tail⟩, hupdate, heq⟩ := map_eq_ok hstep
      cases heq
      obtain ⟨hf, hfs⟩ := List.forall_mem_cons.1 hlater
      exact ⟨hfs, hfields f hf cs update _ hupdate value hvalue⟩
  · obtain ⟨⟨d, tail⟩, hread, heq⟩ := map_eq_ok h
    cases heq
    refine readContainer_keeps (P := fun d => P d.value) ?_ hinitial hread
    intro d cs d' rest' hd hstep
    unfold readField at hstep
    obtain ⟨⟨name, tail⟩, _, hstep⟩ := bind_eq_ok hstep
    dsimp only at hstep
    split at hstep
    · split at hstep
      · obtain ⟨_, _, heq⟩ := map_eq_ok hstep
        cases heq
        exact hd
      · exact absurd hstep (by simp)
    · next f hfind =>
      split at hstep
      · exact absurd hstep (by simp)
      · split at hstep
        · obtain ⟨⟨update, tail'⟩, hupdate, heq⟩ := map_eq_ok hstep
          cases heq
          exact hfields f (List.mem_of_find?_eq_some hfind) _ update _ hupdate _ hd
        · exact absurd hstep (by simp)
  · exact absurd h (by simp)

end KeywordRunner.Json
