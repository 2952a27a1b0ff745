import KeywordRunner.Proofs.Session.Steps

/-!
# Proofs.Session.Ids — who has which id

Ids are handed out in increasing order, each to a caller that has its turn, and a call is posted
before the next id is handed out. So a caller that waits for its answer has the latest id of all,
and as long as the device makes no id up, no message anywhere bears a larger one.

* **`Session.Consistent`**, **`Caller.Consistent`** — the invariant of a session and of one caller.
* **`Session.Consistent.id_of_answers`** — what a call accepts bears its id.
* **`CallStage.Moves.keeps`** — one caller's move.
* **`Callers.Correlated`**, **`Correlated.step`** — the invariant of everyone, and the step.
-/

namespace KeywordRunner

open Wire (Message)

/-! ## Ids -/

namespace Session

/-- The calls among the messages handed to the writer. -/
def calls (s : Session) : List Message := s.outbox.filter fun m => decide (m.type = .call)

def callIds (s : Session) : List UInt64 := s.calls.filterMap (·.id)

/-- Nobody has called over the session, and nothing has arrived. -/
structure Fresh (s : Session) : Prop where
  lastId : s.lastId = 0
  inbox : s.inbox = []
  calls : s.calls = []

theorem fresh_connect (deviceId : String) (peer : Option SocketAddress) (timeout : Duration) :
    (connect deviceId peer timeout).Fresh := ⟨rfl, rfl, rfl⟩

theorem calls_congr {s s' : Session} (h : s'.outbox = s.outbox) : s'.calls = s.calls := by
  rw [calls, h, calls]

theorem callIds_congr {s s' : Session} (h : s'.outbox = s.outbox) : s'.callIds = s.callIds := by
  rw [callIds, calls_congr h, callIds]

theorem calls_post (s : Session) (r : Request) (id : UInt64) :
    calls { s with outbox := s.outbox ++ [r.message id] } = s.calls ++ [r.message id] := by
  unfold calls
  rw [List.filter_append]
  rfl

theorem callIds_post (s : Session) (r : Request) (id : UInt64) :
    callIds { s with outbox := s.outbox ++ [r.message id] } = s.callIds ++ [id] := by
  unfold callIds
  rw [calls_post, List.filterMap_append]
  rfl

end Session

/-- The id of a call, once it has one. -/
def CallStage.id? : CallStage → Option UInt64
  | .numbered id | .waiting id => some id
  | .finished id _ => id
  | .entering | .queued | .clearing | .cancelled => none

/-- Whether a call is under way and has no id yet. -/
def CallStage.isAhead : CallStage → Bool
  | .entering | .queued | .clearing => true
  | .numbered _ | .waiting _ | .finished _ _ | .cancelled => false

def CallStage.isNumbered : CallStage → Bool
  | .numbered _ => true
  | .entering | .queued | .clearing | .waiting _ | .finished _ _ | .cancelled => false

namespace Callers

/-- Whether an act is none of the device's, or puts an answer in the inbox: a message with the id
of a call that has been handed to the writer. -/
def Act.isAnswer (s : Session) : Act → Bool
  | .deliver (.message m) => !s.inboxOpen || s.calls.any (·.id == m.id)
  | _ => true

end Callers

/-! ## The invariant -/

/-- Calls have increasing ids, the latest of which has been handed out last, and each message that
waits to be taken bears one of them. -/
structure Session.Consistent (s : Session) : Prop where
  named : ∀ m ∈ s.calls, ∃ id, m.id = some id
  increasing : s.callIds.Pairwise (· < ·)
  bounded : ∀ id ∈ s.callIds, id ≤ s.lastId
  answered : ∀ m ∈ s.inbox, ∃ id ∈ s.callIds, m.id = some id

/-- A caller between its id and its answer has the id that was handed out last. -/
structure Caller.Consistent (s : Session) (caller : Caller) : Prop where
  bounded : ∀ id, caller.stage.id? = some id → id ≤ s.lastId
  numbered : ∀ id, caller.stage = .numbered id → id = s.lastId ∧ ∀ k ∈ s.callIds, k < id
  waiting : ∀ id, caller.stage = .waiting id → id = s.lastId ∧ caller.request.message id ∈ s.calls

namespace Callers

/-- What holds of everyone at any time: one caller has its turn at most, no more ids are in use
than callers have asked for, and no two callers share one. -/
structure Correlated (c : Callers) : Prop where
  turns : c.count CallStage.hasTurn ≤ 1
  handedOut : c.session.lastId.toNat + c.count CallStage.isAhead ≤ c.callers.length
  session : c.session.Consistent
  callers : ∀ (i : Nat) (caller : Caller), c.callers[i]? = some caller →
    caller.Consistent c.session
  distinct : ∀ (i j : Nat) (a b : Caller) (id : UInt64), c.callers[i]? = some a →
    c.callers[j]? = some b → a.stage.id? = some id → b.stage.id? = some id → i = j

end Callers

/-! ## What one caller's move keeps -/

theorem Session.Fresh.callIds {s : Session} (h : s.Fresh) : s.callIds = [] := by
  rw [Session.callIds, h.calls, List.filterMap_nil]

theorem Session.Fresh.consistent {s : Session} (h : s.Fresh) : s.Consistent := by
  refine ⟨?_, ?_, ?_, ?_⟩
  · rw [h.calls]
    exact fun _ hm => absurd hm List.not_mem_nil
  · rw [h.callIds]
    exact List.Pairwise.nil
  · rw [h.callIds]
    exact fun _ hid => absurd hid List.not_mem_nil
  · rw [h.inbox]
    exact fun _ hm => absurd hm List.not_mem_nil

namespace Session.Consistent

variable {s s' : Session} {r : Request} {id : UInt64} {m : Message}

theorem of_same (h : s.Consistent) (hlast : s'.lastId = s.lastId) (houtbox : s'.outbox = s.outbox)
    (hinbox : ∀ m ∈ s'.inbox, m ∈ s.inbox ∨ ∃ id ∈ s.callIds, m.id = some id) : s'.Consistent := by
  have hcalls : s'.calls = s.calls := calls_congr houtbox
  have hids : s'.callIds = s.callIds := callIds_congr houtbox
  refine ⟨?_, ?_, ?_, ?_⟩
  · rw [hcalls]
    exact h.named
  · rw [hids]
    exact h.increasing
  · rw [hids, hlast]
    exact h.bounded
  · rw [hids]
    intro m hm
    rcases hinbox m hm with hm | hm
    · exact h.answered m hm
    · exact hm

theorem drop {ms : List Message} (h : s.Consistent) (hinbox : s.inbox = m :: ms) :
    Session.Consistent { s with inbox := ms } := by
  refine h.of_same rfl rfl fun m' hm' => Or.inl ?_
  rw [hinbox]
  exact List.mem_cons_of_mem m hm'

/-- An id is handed out, which no call has yet. -/
theorem number (h : s.Consistent) (hroom : s.lastId.toNat + 1 < UInt64.size) :
    s.lastId < s.lastId + 1 ∧ Session.Consistent { s with lastId := s.lastId + 1 } := by
  have hlt : s.lastId < s.lastId + 1 := by
    rw [UInt64.lt_iff_toNat_lt, UInt64.toNat_add, UInt64.toNat_one, Nat.mod_eq_of_lt hroom]
    exact Nat.lt_succ_self _
  exact ⟨hlt, h.named, h.increasing, fun id hid => UInt64.le_trans (h.bounded id hid)
    (UInt64.le_of_lt hlt), h.answered⟩

/-- A call is posted under an id that is larger than those of the calls before it. -/
theorem post (h : s.Consistent) (hlast : id = s.lastId) (hlarger : ∀ k ∈ s.callIds, k < id) :
    Session.Consistent { s with outbox := s.outbox ++ [r.message id] } := by
  refine ⟨?_, ?_, ?_, ?_⟩
  · rw [calls_post]
    intro m hm
    rcases List.mem_append.1 hm with hm | hm
    · exact h.named m hm
    · rw [List.mem_singleton.1 hm]
      exact ⟨id, rfl⟩
  · rw [callIds_post]
    -- the ids before it increase, and each of them is smaller
    refine List.pairwise_append.2 ⟨h.increasing, List.pairwise_singleton _ _, fun k hk j hj => ?_⟩
    rw [List.mem_singleton.1 hj]
    exact hlarger k hk
  · rw [callIds_post]
    intro k hk
    rcases List.mem_append.1 hk with hk | hk
    · exact h.bounded k hk
    · rw [List.mem_singleton.1 hk, hlast]
      exact UInt64.le_refl _
  · rw [callIds_post]
    intro m hm
    obtain ⟨k, hk, hname⟩ := h.answered m hm
    exact ⟨k, List.mem_append_left _ hk, hname⟩

/-- Every call has its id. -/
theorem map_id_calls (h : s.Consistent) : s.calls.map (·.id) = s.callIds.map some := by
  have hnamed := h.named
  unfold callIds
  generalize s.calls = ms at hnamed ⊢
  induction ms with
  | nil => rfl
  | cons m ms ih =>
    obtain ⟨id, hid⟩ := hnamed m List.mem_cons_self
    rw [List.map_cons, List.filterMap_cons, hid,
      ih fun m' hm' => hnamed m' (List.mem_cons_of_mem m hm')]
    rfl

/-- The heart of the matter: no message bears a larger id than the latest one, and a call does not
accept a smaller one. -/
theorem id_of_answers (h : s.Consistent) (hm : m ∈ s.inbox)
    (hanswer : Session.answers s.lastId m = true) : m.id = some s.lastId := by
  obtain ⟨id, hid, hname⟩ := h.answered m hm
  have hle : id ≤ s.lastId := h.bounded id hid
  -- a smaller id would be that of a late answer, which is skipped
  have hge : ¬id < s.lastId := by
    unfold Session.answers at hanswer
    rw [hname] at hanswer
    simpa using hanswer
  rw [hname, UInt64.le_antisymm hle (UInt64.not_lt.1 hge)]

end Session.Consistent

namespace Caller.Consistent

variable {s s' : Session} {caller : Caller}

theorem of_same (h : caller.Consistent s) (hlast : s'.lastId = s.lastId)
    (houtbox : s'.outbox = s.outbox) : caller.Consistent s' := by
  have hcalls : s'.calls = s.calls := Session.calls_congr houtbox
  have hids : s'.callIds = s.callIds := Session.callIds_congr houtbox
  refine ⟨?_, ?_, ?_⟩
  · rw [hlast]
    exact h.bounded
  · rw [hlast, hids]
    exact h.numbered
  · rw [hlast, hcalls]
    exact h.waiting

/-- A caller without its turn does not care what is posted and taken. -/
theorem of_not_hasTurn (h : caller.Consistent s) (hidle : caller.stage.hasTurn = false)
    (hlast : s.lastId ≤ s'.lastId) : caller.Consistent s' where
  bounded id hid := UInt64.le_trans (h.bounded id hid) hlast
  numbered id hstage := by
    rw [hstage] at hidle
    exact absurd hidle (by simp [CallStage.hasTurn])
  waiting id hstage := by
    rw [hstage] at hidle
    exact absurd hidle (by simp [CallStage.hasTurn])

/-- A caller that gives its turn up needs no more than its id to be one that was handed out. -/
theorem retire (h : caller.Consistent s) {stage : CallStage} (hidle : stage.hasTurn = false)
    (hid : ∀ id, stage.id? = some id → caller.stage.id? = some id) :
    Caller.Consistent s { caller with stage } where
  bounded id hstage := h.bounded id (hid id hstage)
  numbered id hstage := by
    dsimp only at hstage
    rw [hstage] at hidle
    exact absurd hidle (by simp [CallStage.hasTurn])
  waiting id hstage := by
    dsimp only at hstage
    rw [hstage] at hidle
    exact absurd hidle (by simp [CallStage.hasTurn])

end Caller.Consistent

namespace CallStage.Moves

variable {r : Request} {busy : Bool} {s s' : Session} {stage stage' : CallStage}

theorem session_eq (h : stage.Moves r busy s s' stage') (hidle : stage.hasTurn = false) :
    s' = s := by
  cases h with
  | refused _ => rfl
  | lineUp _ => rfl
  | turn _ => rfl
  | forget _ => exact absurd hidle (by decide)
  | number _ => exact absurd hidle (by decide)
  | post _ => exact absurd hidle (by simp [hasTurn])
  | noWriter _ => rfl
  | skip _ _ => exact absurd hidle (by simp [hasTurn])
  | take _ _ => exact absurd hidle (by simp [hasTurn])
  | hungUp _ _ => rfl

/-- An id is the one that the caller had, or has just been handed out. -/
theorem id_cases (h : stage.Moves r busy s s' stage') {id : UInt64} (hid : stage'.id? = some id) :
    stage.id? = some id ∨ (stage.isAhead = true ∧ id = s.lastId + 1) := by
  cases h with
  | refused _ => exact absurd hid (by simp [id?])
  | lineUp _ => exact absurd hid (by simp [id?])
  | turn _ => exact absurd hid (by simp [id?])
  | forget _ => exact absurd hid (by simp [id?])
  | number _ => exact Or.inr ⟨rfl, (Option.some.inj hid).symm⟩
  | post _ => exact Or.inl hid
  | noWriter _ => exact Or.inl hid
  | skip _ _ => exact Or.inl hid
  | take _ _ => exact Or.inl hid
  | hungUp _ _ => exact Or.inl hid

/-- The only message that a caller hands to the writer is its call. -/
theorem outbox_cases (h : stage.Moves r busy s s' stage') :
    s'.outbox = s.outbox ∨ ∃ id, stage = .numbered id ∧ s.writerOpen = true ∧
      s'.outbox = s.outbox ++ [r.message id] := by
  cases h with
  | refused _ => exact Or.inl rfl
  | lineUp _ => exact Or.inl rfl
  | turn _ => exact Or.inl rfl
  | forget _ => exact Or.inl rfl
  | number _ => exact Or.inl rfl
  | post hwriter => exact Or.inr ⟨_, rfl, hwriter, rfl⟩
  | noWriter _ => exact Or.inl rfl
  | skip _ _ => exact Or.inl rfl
  | take _ _ => exact Or.inl rfl
  | hungUp _ _ => exact Or.inl rfl

/-- An id is handed out for a caller that had none. -/
theorem handedOut_le (h : stage.Moves r busy s s' stage') :
    s'.lastId.toNat + (if stage'.isAhead then 1 else 0)
      ≤ s.lastId.toNat + if stage.isAhead then 1 else 0 := by
  cases h with
  | number _ =>
    -- this holds even past the greatest id, where the sum wraps
    show (s.lastId + 1).toNat + 0 ≤ s.lastId.toNat + 1
    rw [UInt64.toNat_add, UInt64.toNat_one, Nat.add_zero]
    exact Nat.mod_le _ _
  | refused _ => exact Nat.le_succ _
  | lineUp _ => exact Nat.le_refl _
  | turn _ => exact Nat.le_refl _
  | forget _ => exact Nat.le_refl _
  | post _ => exact Nat.le_refl _
  | noWriter _ => exact Nat.le_refl _
  | skip _ _ => exact Nat.le_refl _
  | take _ _ => exact Nat.le_refl _
  | hungUp _ _ => exact Nat.le_refl _

/-- The move of a consistent caller on a consistent session leaves both consistent, as long as
there is an id left for a caller that has none. -/
theorem keeps (h : stage.Moves r busy s s' stage') (hs : s.Consistent)
    (hcaller : Caller.Consistent s ⟨r, stage⟩)
    (hroom : stage.isAhead = true → s.lastId.toNat + 1 < UInt64.size) :
    s.lastId ≤ s'.lastId ∧ s'.Consistent ∧ Caller.Consistent s' ⟨r, stage'⟩ := by
  -- whoever neither gets nor keeps its turn is as consistent as before
  have hidle : ∀ {stage'' : CallStage}, stage''.hasTurn = false →
      (∀ id, stage''.id? = some id → stage.id? = some id) → Caller.Consistent s ⟨r, stage''⟩ :=
    fun hturn hid => hcaller.retire hturn hid
  cases h with
  | refused _ => exact ⟨UInt64.le_refl _, hs, hidle rfl fun _ hid => hid⟩
  | lineUp _ => exact ⟨UInt64.le_refl _, hs, hidle rfl fun _ hid => hid⟩
  | turn _ =>
    refine ⟨UInt64.le_refl _, hs, fun _ hid => ?_, fun _ hstage => ?_, fun _ hstage => ?_⟩
    · exact absurd hid (by simp [id?])
    · exact absurd hstage (by simp)
    · exact absurd hstage (by simp)
  | forget hinbox => exact ⟨UInt64.le_refl _, hs.drop hinbox, hcaller.of_same rfl rfl⟩
  | number _ =>
    -- the new id is larger than that of every call, since it is larger than the latest one
    obtain ⟨hlt, hs'⟩ := hs.number (hroom rfl)
    refine ⟨UInt64.le_of_lt hlt, hs', fun id hid => ?_, fun id hstage => ?_, fun id hstage => ?_⟩
    · cases hid
      exact UInt64.le_refl _
    · cases hstage
      exact ⟨rfl, fun k hk => UInt64.lt_of_le_of_lt (hs.bounded k hk) hlt⟩
    · exact absurd hstage (by simp)
  | @post id _ =>
    obtain ⟨hlast, hlarger⟩ := hcaller.numbered id rfl
    refine ⟨UInt64.le_refl _, hs.post hlast hlarger, hcaller.bounded, fun id hstage => ?_,
      fun id hstage => ?_⟩
    · exact absurd hstage (by simp)
    · cases hstage
      rw [Session.calls_post]
      exact ⟨hlast, List.mem_append_right _ (List.mem_singleton_self _)⟩
  | noWriter _ => exact ⟨UInt64.le_refl _, hs, hidle rfl fun _ hid => hid⟩
  | skip hinbox _ => exact ⟨UInt64.le_refl _, hs.drop hinbox, hcaller.of_same rfl rfl⟩
  | @take id m ms hinbox _ =>
    have hover : Caller.Consistent s ⟨r, .finished (some id) (Session.outcomeOf r.name m)⟩ :=
      hidle rfl fun _ hid => hid
    exact ⟨UInt64.le_refl _, hs.drop hinbox, hover.of_same rfl rfl⟩
  | hungUp _ _ => exact ⟨UInt64.le_refl _, hs, hidle rfl fun _ hid => hid⟩

end CallStage.Moves

/-! ## What every step keeps -/

namespace Callers

variable {c c' : Callers} {act : Act} {acts : List Act} {i : Nat} {a : Caller} {stage : CallStage}
  {s' : Session}

namespace Correlated

theorem idle {s : Session} (h : s.Fresh) : (idle s).Correlated where
  turns := Nat.zero_le 1
  handedOut := by
    show s.lastId.toNat + 0 ≤ 0
    rw [h.lastId]
    exact Nat.le_refl 0
  session := h.consistent
  callers _ _ hget := absurd hget (by simp [Callers.idle])
  distinct _ _ _ _ _ hget := absurd hget (by simp [Callers.idle])

/-- Something happens to the session that concerns neither ids nor calls. -/
theorem environment (h : c.Correlated) (hlast : s'.lastId = c.session.lastId)
    (houtbox : s'.outbox = c.session.outbox)
    (hinbox : ∀ m ∈ s'.inbox, m ∈ c.session.inbox ∨ ∃ id ∈ c.session.callIds, m.id = some id) :
    Correlated { c with session := s' } where
  turns := h.turns
  handedOut := by
    show s'.lastId.toNat + c.count CallStage.isAhead ≤ c.callers.length
    rw [hlast]
    exact h.handedOut
  session := h.session.of_same hlast houtbox hinbox
  callers i caller hget := (h.callers i caller hget).of_same hlast houtbox
  distinct := h.distinct

/-- Someone joins: a caller without an id and without its turn. -/
theorem join (h : c.Correlated) (r : Request) :
    Correlated { c with callers := c.callers ++ [⟨r, .entering⟩] } := by
  have hget : ∀ (j : Nat) (b : Caller), (c.callers ++ [⟨r, .entering⟩])[j]? = some b →
      c.callers[j]? = some b ∨ b = ⟨r, .entering⟩ := by
    intro j b hb
    by_cases hj : j < c.callers.length
    · rw [List.getElem?_append_left hj] at hb
      exact Or.inl hb
    · rw [List.getElem?_append_right (Nat.not_lt.1 hj)] at hb
      exact Or.inr (List.mem_singleton.1 (List.mem_of_getElem? hb))
  refine ⟨?_, ?_, h.session, fun j b hb => ?_, fun j k a b id ha hb hida hidb => ?_⟩
  · rw [count_join, if_neg (by decide)]
    exact h.turns
  · rw [count_join, if_pos (show CallStage.entering.isAhead = true from rfl)]
    show c.session.lastId.toNat + (c.count CallStage.isAhead + 1)
      ≤ (c.callers ++ [Caller.mk r .entering]).length
    rw [List.length_append, ← Nat.add_assoc]
    exact Nat.add_le_add_right h.handedOut 1
  · rcases hget j b hb with hb | rfl
    · exact h.callers j b hb
    · refine ⟨fun _ hid => ?_, fun _ hstage => ?_, fun _ hstage => ?_⟩
      · exact absurd hid (by simp [CallStage.id?])
      · exact absurd hstage (by simp)
      · exact absurd hstage (by simp)
  · -- the one that joins shares no id, since it has none
    rcases hget j a ha with ha | rfl
    · rcases hget k b hb with hb | rfl
      · exact h.distinct j k a b id ha hb hida hidb
      · exact absurd hidb (by simp [CallStage.id?])
    · exact absurd hida (by simp [CallStage.id?])

/-- One caller moves, and whatever it does to the session suits everyone else: either it has its
turn, and nobody else does, or it leaves the session alone. -/
theorem move (h : c.Correlated) (hget : c.callers[i]? = some a)
    (hturns : (setStage { c with session := s' } i stage).count CallStage.hasTurn ≤ 1)
    (hahead : s'.lastId.toNat + (if stage.isAhead then 1 else 0)
      ≤ c.session.lastId.toNat + if a.stage.isAhead then 1 else 0)
    (hquiet : a.stage.hasTurn = false → s' = c.session)
    (hlast : c.session.lastId ≤ s'.lastId) (hsession : s'.Consistent)
    (hown : Caller.Consistent s' { a with stage })
    (hid : ∀ id, stage.id? = some id → a.stage.id? = some id ∨ ¬id ≤ c.session.lastId) :
    Correlated (setStage { c with session := s' } i stage) := by
  -- an id that is new was handed out to nobody else
  have hfresh : ∀ (j : Nat) (b : Caller) (id : UInt64), j ≠ i → c.callers[j]? = some b →
      b.stage.id? = some id → stage.id? ≠ some id := by
    intro j b id hj hb hidb hida
    rcases hid id hida with hold | hnew
    · exact hj (h.distinct j i b a id hb hget hidb hold)
    · exact hnew ((h.callers j b hb).bounded id hidb)
  refine ⟨hturns, ?_, hsession, fun j b hb => ?_, fun j k b₁ b₂ id hb₁ hb₂ hid₁ hid₂ => ?_⟩
  · have hmoved := count_setStage (c := { c with session := s' }) CallStage.isAhead stage hget
    have hbefore := h.handedOut
    have hsame : count { c with session := s' } CallStage.isAhead = c.count CallStage.isAhead := rfl
    rw [hsame] at hmoved
    rw [length_setStage]
    show s'.lastId.toNat + (setStage { c with session := s' } i stage).count CallStage.isAhead
      ≤ c.callers.length
    omega
  · show b.Consistent s'
    rcases getElem?_setStage hb with ⟨rfl, a', ha', rfl⟩ | ⟨hj, hb⟩
    · cases hget.symm.trans ha'
      exact hown
    · have hb' := h.callers j b hb
      -- did the one that moved have its turn?
      cases hturn : a.stage.hasTurn with
      | false =>
        rw [hquiet hturn]
        exact hb'
      | true =>
        refine hb'.of_not_hasTurn ?_ hlast
        cases hother : b.stage.hasTurn with
        | false => rfl
        | true => exact absurd (eq_of_hasTurn h.turns hb hget hother hturn) hj
  · rcases getElem?_setStage hb₁ with ⟨hj, a₁, _, rfl⟩ | ⟨hj, hold₁⟩
    · rcases getElem?_setStage hb₂ with ⟨hk, _⟩ | ⟨hk, hold₂⟩
      · exact hj.trans hk.symm
      · exact absurd hid₁ (hfresh k b₂ id hk hold₂ hid₂)
    · rcases getElem?_setStage hb₂ with ⟨_, a₂, _, rfl⟩ | ⟨_, hold₂⟩
      · exact absurd hid₂ (hfresh j b₁ id hj hold₁ hid₁)
      · exact h.distinct j k b₁ b₂ id hold₁ hold₂ hid₁ hid₂

/-- A caller gives its turn up, or goes without ever having had it. -/
theorem retire (h : c.Correlated) (hget : c.callers[i]? = some a)
    (hturn : stage.hasTurn = false) (hahead : stage.isAhead = false)
    (hid : ∀ id, stage.id? = some id → a.stage.id? = some id) :
    (c.setStage i stage).Correlated := by
  refine h.move hget (Nat.le_trans (count_setStage_le hget hturn) h.turns) ?_ (fun _ => rfl)
    (UInt64.le_refl _) h.session ((h.callers i a hget).retire hturn hid)
    (fun id hstage => Or.inl (hid id hstage))
  rw [hahead, if_neg Bool.false_ne_true]
  exact Nat.le_add_right _ _

/-- An id is left for whoever needs one, since there are fewer callers than ids. -/
theorem room (h : c.Correlated) (hget : c.callers[i]? = some a) (hahead : a.stage.isAhead = true)
    (hsize : c.callers.length < UInt64.size) : c.session.lastId.toNat + 1 < UInt64.size := by
  have hone : 0 < c.count CallStage.isAhead := count_pos hget hahead
  have hall := h.handedOut
  omega

/-- The step. -/
theorem step (h : c.Correlated) (hstep : c.Steps act c') (hdevice : act.isAnswer c.session = true)
    (hsize : c.callers.length < UInt64.size) : c'.Correlated := by
  have hturns : c'.count CallStage.hasTurn ≤ 1 := count_hasTurn_le_one hstep h.turns
  cases hstep with
  | join r => exact h.join r
  | @proceed i caller s' stage' hget hmove =>
    have hroom : caller.stage.isAhead = true → c.session.lastId.toNat + 1 < UInt64.size :=
      fun hahead => h.room hget hahead hsize
    obtain ⟨hlast, hsession, hown⟩ := hmove.keeps h.session (h.callers i caller hget) hroom
    refine h.move hget hturns hmove.handedOut_le hmove.session_eq hlast hsession hown ?_
    intro id hid
    rcases hmove.id_cases hid with hold | ⟨hahead, rfl⟩
    · exact Or.inl hold
    · exact Or.inr (UInt64.not_le.2 (h.session.number (hroom hahead)).1)
  | timeOut hget hstage =>
    refine h.retire hget rfl rfl fun id hid => ?_
    rw [hstage]
    exact hid
  | cancel hget _ => exact h.retire hget rfl rfl fun id hid => absurd hid (by simp [CallStage.id?])
  | deliver d =>
    obtain ⟨hlast, houtbox, _, hinbox⟩ := deliver_frame c.session d
    refine h.environment hlast houtbox fun m hm => ?_
    rcases hinbox m hm with hold | ⟨rfl, hopen⟩
    · exact Or.inl hold
    · -- the device is trusted with the id of what it sends
      have hcall : c.session.calls.any (·.id == m.id) = true := by
        simpa [Act.isAnswer, hopen] using hdevice
      obtain ⟨call, hmem, hname⟩ := List.any_eq_true.1 hcall
      obtain ⟨id, hid⟩ := h.session.named call hmem
      have hm : m.id = some id := by
        rw [← hid]
        exact (beq_iff_eq.1 hname).symm
      exact Or.inr ⟨id, List.mem_filterMap.2 ⟨call, hmem, hid⟩, hm⟩
  | close => exact h.environment rfl rfl fun m hm => Or.inl hm
  | dropWriter => exact h.environment rfl rfl fun m hm => Or.inl hm

end Correlated

end Callers

end KeywordRunner
