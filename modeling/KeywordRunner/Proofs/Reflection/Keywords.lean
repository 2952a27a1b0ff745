import KeywordRunner.Proofs.Remote.Arguments
import KeywordRunner.Proofs.Session.Calls
import KeywordRunner.Proofs.Wire.RoundTrip
import KeywordRunner.Reflection.Library

/-!
# Proofs.Reflection.Keywords — a reflection keyword sends all or nothing

The keywords that reach the device check everything before they send anything. If a check fails,
neither the session nor the device learns of it; otherwise one call goes out, and it says what the
script said.

* **`Operation.Refuses`** — every reason not to send anything, in the order of the checks, with the
  fault it comes to.
* **`Operation.sent`** — the arguments as they travel; **`Operation.Sends`** — what sending them
  does to the session.
* **`refuses_or_open`** — what the checks leave.
* **`run_of_refuses`**, **`run_of_open`** — the two ways a keyword can go, and
  **`keywords_send_all_or_nothing`** both.
-/

namespace KeywordRunner

open Script (Keyword KeywordFault Outcome)
open Wire (Message encodeFrame decodeFrame)

namespace RemoteValue

/-! ## Names among the arguments -/

/-- Whether a value can name a member. -/
def NamesMember (v : RemoteValue) : Prop := ∃ name, name ≠ "" ∧ v = .str name

/-- Whether a value can name a class. -/
def NamesClass (v : RemoteValue) : Prop := ∃ name, name ≠ "" ∧ (v = .str name ∨ v = .classRef name)

/-- A text in the place of a class is the class of that name. -/
def asClass : RemoteValue → RemoteValue
  | .str name => .classRef name
  | v => v

theorem ReadsBack.asClass {v : RemoteValue} (h : v.ReadsBack) : v.asClass.ReadsBack := by
  cases v with
  | str name => exact nofun
  | null | bool _ | int _ | float _ | classRef _ | object _ | record _ | list _ => exact h

end RemoteValue

namespace Reflection

variable {keyword : String} {v : RemoteValue}

theorem memberName_cases (keyword : String) (v : RemoteValue) :
    (∃ name, name ≠ "" ∧ v = .str name ∧ memberName keyword v = .ok name) ∨
    (¬v.NamesMember ∧ memberName keyword v = .error (.invalidArgument keyword
      ("expected a member name, got " ++ v.kind ++ " " ++ v.text))) := by
  by_cases h : v.NamesMember
  · obtain ⟨name, hname, rfl⟩ := h
    exact Or.inl ⟨name, hname, rfl, if_neg hname⟩
  · refine Or.inr ⟨h, ?_⟩
    cases v with
    | str name =>
      have hname : name = "" := by
        by_contra hname
        exact h ⟨name, hname, rfl⟩
      exact if_pos hname
    | null | bool _ | int _ | float _ | classRef _ | object _ | record _ | list _ => rfl

theorem className_cases (keyword : String) (v : RemoteValue) :
    (∃ name, v.NamesClass ∧ v.asClass = .classRef name ∧ className keyword v = .ok name) ∨
    (¬v.NamesClass ∧ className keyword v = .error (.invalidArgument keyword
      ("expected a class name, got " ++ v.kind ++ " " ++ v.text))) := by
  by_cases h : v.NamesClass
  · have hclass := h
    obtain ⟨name, hname, rfl | rfl⟩ := h
    · exact Or.inl ⟨name, hclass, rfl, if_neg hname⟩
    · exact Or.inl ⟨name, hclass, rfl, if_neg hname⟩
  · refine Or.inr ⟨h, ?_⟩
    cases v with
    | str name =>
      have hname : name = "" := by
        by_contra hname
        exact h ⟨name, hname, Or.inl rfl⟩
      exact if_pos hname
    | classRef name =>
      have hname : name = "" := by
        by_contra hname
        exact h ⟨name, hname, Or.inr rfl⟩
      exact if_pos hname
    | null | bool _ | int _ | float _ | object _ | record _ | list _ => rfl

namespace Operation

/-! ## What each keyword asks for and sends -/

/-- The name under which the device knows the call. -/
def wireName : Operation → String
  | .method => "call"
  | .staticMethod => "call_static"
  | .construct => "new"
  | .release => "delete"
  | .assign => "set"

/-- The numbers of arguments that it takes. -/
def Takes : Operation → Nat → Prop
  | .method, k | .staticMethod, k => 2 ≤ k
  | .construct, k => 1 ≤ k
  | .release, k => k = 1
  | .assign, k => k = 3

/-- How its fault puts the number of arguments. -/
def expected : Operation → String
  | .method | .staticMethod => "at least 2"
  | .construct => "at least 1"
  | .release => "1"
  | .assign => "3"

/-- Whether the first argument is in the place of a class. -/
def startsWithClass : Operation → Bool
  | .staticMethod | .construct => true
  | .method | .release | .assign => false

/-- Whether the second argument is in the place of a member. -/
def goesOnWithMember : Operation → Bool
  | .method | .staticMethod | .assign => true
  | .construct | .release => false

/-- The arguments as they travel: its own, in order, with a class where a class is to be. -/
def sent (op : Operation) (args : List RemoteValue) : List RemoteValue :=
  if op.startsWithClass then args.modify 0 RemoteValue.asClass else args

/-- Why the arguments do not name what they are to name. The class is looked at first. -/
inductive Misnames (op : Operation) (args : List RemoteValue) : String → Prop where
  | className {v : RemoteValue} (hplace : op.startsWithClass = true) (hget : args[0]? = some v)
      (hv : ¬v.NamesClass) :
      Misnames op args ("expected a class name, got " ++ v.kind ++ " " ++ v.text)
  | memberName {v : RemoteValue}
      (hclass : op.startsWithClass = true → ∀ u, args[0]? = some u → u.NamesClass)
      (hplace : op.goesOnWithMember = true) (hget : args[1]? = some v) (hv : ¬v.NamesMember) :
      Misnames op args ("expected a member name, got " ++ v.kind ++ " " ++ v.text)

/-- Whether the arguments name what they are to name. -/
structure Names (op : Operation) (args : List RemoteValue) : Prop where
  className : op.startsWithClass = true → ∀ v, args[0]? = some v → v.NamesClass
  memberName : op.goesOnWithMember = true → ∀ v, args[1]? = some v → v.NamesMember

/-- Why a keyword sends nothing, and what it fails with. -/
inductive Refuses (op : Operation) (args : List RemoteValue) (c : Context) :
    KeywordFault → Prop where
  | count (hcount : ¬op.Takes args.length) :
      Refuses op args c (.arity op.keyword op.expected args.length)
  | noSession (hcount : op.Takes args.length) (hlink : c.link = none) :
      Refuses op args c (.noSession c.deviceId)
  | misnamed {link : Link} {message : String} (hcount : op.Takes args.length)
      (hlink : c.link = some link) (hnames : op.Misnames args message) :
      Refuses op args c (.invalidArgument op.keyword message)
  | unsendable {link : Link} {before after : List RemoteValue} {v : RemoteValue}
      (hcount : op.Takes args.length) (hlink : c.link = some link) (hnames : op.Names args)
      (hsent : op.sent args = before ++ v :: after) (hbefore : ∀ u ∈ before, u.isSendable = true)
      (hv : v.isSendable = false) : Refuses op args c (.call (.argument (.unsupported v.kind)))
  | closed {link : Link} (hcount : op.Takes args.length) (hlink : c.link = some link)
      (hnames : op.Names args) (hsendable : ∀ v ∈ op.sent args, v.isSendable = true)
      (hclosed : link.session.closed = true) :
      Refuses op args c (.call (.notConnected link.session.deviceId))

variable {op : Operation} {args : List RemoteValue} {c : Context} {link : Link}

/-! ## The checks -/

theorem checkCount_of_takes (h : op.Takes args.length) : op.checkCount args.length = .ok () := by
  cases op <;> exact if_pos h

theorem checkCount_of_not_takes (h : ¬op.Takes args.length) :
    op.checkCount args.length = .error (.arity op.keyword op.expected args.length) := by
  have hone : Digits.text 1 = "1" := by cbv
  have htwo : Digits.text 2 = "2" := by cbv
  have hthree : Digits.text 3 = "3" := by cbv
  cases op with
  | method | staticMethod =>
    refine (if_neg h).trans ?_
    rw [htwo]
    rfl
  | construct =>
    refine (if_neg h).trans ?_
    rw [hone]
    rfl
  | release =>
    refine (if_neg h).trans ?_
    rw [hone]
    rfl
  | assign =>
    refine (if_neg h).trans ?_
    rw [hthree]
    rfl

theorem exists_two (h : 2 ≤ args.length) : ∃ a b rest, args = a :: b :: rest := by
  match args, h with
  | a :: b :: rest, _ => exact ⟨a, b, rest, rfl⟩

/-- With a right number of arguments, they either ask for a call or are misnamed. -/
theorem callOf_cases (h : op.Takes args.length) :
    (op.Names args ∧ ∃ call, op.callOf args = .ok call ∧ call.wireName = op.wireName ∧
      call.wireArgs = op.sent args) ∨
    ∃ message, op.Misnames args message ∧
      op.callOf args = .error (.invalidArgument op.keyword message) := by
  cases op with
  | method =>
    obtain ⟨target, member, rest, rfl⟩ := exists_two h
    unfold callOf
    rcases memberName_cases "call" member with ⟨name, hname, rfl, hok⟩ | ⟨hname, herror⟩
    · refine Or.inl ⟨⟨nofun, ?_⟩, .method target name rest, congrArg (· >>= _) hok, rfl, rfl⟩
      rintro - v ⟨rfl⟩
      exact ⟨name, hname, rfl⟩
    · exact Or.inr ⟨_, .memberName nofun rfl rfl hname, congrArg (· >>= _) herror⟩
  | staticMethod =>
    obtain ⟨cls, member, rest, rfl⟩ := exists_two h
    unfold callOf
    rcases className_cases "call_static" cls with ⟨clsName, hcls, has, hok⟩ | ⟨hcls, herror⟩
    · have hclass : ∀ v, (cls :: member :: rest)[0]? = some v → v.NamesClass := by
        rintro v ⟨rfl⟩
        exact hcls
      rcases memberName_cases "call_static" member with
        ⟨name, hname, rfl, hok'⟩ | ⟨hname, herror⟩
      · refine Or.inl ⟨⟨fun _ => hclass, ?_⟩, .staticMethod clsName name rest, ?_, rfl, ?_⟩
        · rintro - v ⟨rfl⟩
          exact ⟨name, hname, rfl⟩
        · refine (congrArg (· >>= _) hok).trans ?_
          show (memberName "call_static" (.str name) >>= fun name =>
            pure (ReflectionCall.staticMethod clsName name rest)) = _
          rw [hok']
          rfl
        · exact congrArg (· :: .str name :: rest) has.symm
      · refine Or.inr ⟨_, .memberName (fun _ => hclass) rfl rfl hname, ?_⟩
        refine (congrArg (· >>= _) hok).trans ?_
        show (memberName "call_static" member >>= fun name =>
          pure (ReflectionCall.staticMethod clsName name rest)) = _
        rw [herror]
        rfl
    · exact Or.inr ⟨_, .className rfl rfl hcls, congrArg (· >>= _) herror⟩
  | construct =>
    obtain ⟨cls, rest, rfl⟩ := List.exists_cons_of_length_pos h
    unfold callOf
    rcases className_cases "new" cls with ⟨clsName, hcls, has, hok⟩ | ⟨hcls, herror⟩
    · refine Or.inl ⟨⟨?_, nofun⟩, .construct clsName rest, congrArg (· >>= _) hok, rfl, ?_⟩
      · rintro - v ⟨rfl⟩
        exact hcls
      · exact congrArg (· :: rest) has.symm
    · exact Or.inr ⟨_, .className rfl rfl hcls, congrArg (· >>= _) herror⟩
  | release =>
    obtain ⟨target, rfl⟩ := List.length_eq_one_iff.1 h
    exact Or.inl ⟨⟨nofun, nofun⟩, .release target, rfl, rfl, rfl⟩
  | assign =>
    obtain ⟨target, field, value, rfl⟩ := List.length_eq_three.1 h
    unfold callOf
    rcases memberName_cases "set_field" field with ⟨name, hname, rfl, hok⟩ | ⟨hname, herror⟩
    · refine Or.inl ⟨⟨nofun, ?_⟩, .assign target name value, congrArg (· >>= _) hok, rfl, rfl⟩
      rintro - v ⟨rfl⟩
      exact ⟨name, hname, rfl⟩
    · exact Or.inr ⟨_, .memberName nofun rfl rfl hname, congrArg (· >>= _) herror⟩

theorem Misnames.not_names {message : String} (h : op.Misnames args message) :
    ¬op.Names args := by
  intro hnames
  cases h with
  | className hplace hget hv => exact hv (hnames.className hplace _ hget)
  | memberName hclass hplace hget hv => exact hv (hnames.memberName hplace _ hget)

theorem Misnames.unique {message message' : String} (h : op.Misnames args message)
    (h' : op.Misnames args message') : message = message' := by
  cases h with
  | className hplace hget hv =>
    cases h' with
    | className hplace' hget' hv' =>
      cases hget.symm.trans hget'
      rfl
    | memberName hclass hplace' hget' hv' => exact absurd (hclass hplace _ hget) hv
  | memberName hclass hplace hget hv =>
    cases h' with
    | className hplace' hget' hv' => exact absurd (hclass hplace' _ hget') hv'
    | memberName hclass' hplace' hget' hv' =>
      cases hget.symm.trans hget'
      rfl

theorem callOf_of_misnames {message : String} (hcount : op.Takes args.length)
    (h : op.Misnames args message) :
    op.callOf args = .error (.invalidArgument op.keyword message) := by
  rcases callOf_cases hcount with ⟨hnames, _⟩ | ⟨message', h', herror⟩
  · exact absurd hnames h.not_names
  · rw [h.unique h', herror]

theorem exists_callOf (hcount : op.Takes args.length) (h : op.Names args) :
    ∃ call, op.callOf args = .ok call ∧ call.wireName = op.wireName ∧
      call.wireArgs = op.sent args := by
  rcases callOf_cases hcount with ⟨_, hcall⟩ | ⟨message, hmisnames, _⟩
  · exact hcall
  · exact absurd h hmisnames.not_names

/-! ## The run of a keyword -/

/-- The outcome of a keyword whose call came to this. -/
def outcomeOf (result : Except CallFault Message) : Outcome :=
  match result with
  | .ok m => .value (resultOf m)
  | .error fault => .fault (.call fault)

theorem forall_mem_sent {P : RemoteValue → Prop} (hP : ∀ {v}, P v → P v.asClass)
    (h : ∀ v ∈ args, P v) : ∀ v ∈ op.sent args, P v := by
  unfold sent
  split
  · cases args with
    | nil => exact h
    | cons v rest =>
      obtain ⟨hv, hrest⟩ := List.forall_mem_cons.1 h
      exact List.forall_mem_cons.2 ⟨hP hv, hrest⟩
  · exact h

/-- With a session attached, a keyword does what its arguments ask for. -/
theorem run_of_link (hcount : op.Takes args.length) (hlink : c.link = some link) :
    op.run Context.port args c = match op.callOf args with
      | .error fault => (.fault fault, c)
      | .ok call =>
        match RemoteValue.encodeArgs call.wireArgs with
        | .error fault => (.fault (.call (.argument fault)), c)
        | .ok texts =>
          (outcomeOf (c.call call.wireName (texts.map .str) .reflection).2,
            (c.call call.wireName (texts.map .str) .reflection).1) := by
  have hattached : c.session = .ok link.session := by
    rw [Context.session, hlink]
  unfold run
  rw [checkCount_of_takes hcount]
  simp only [bind, StateT.bind, Context.port, hattached, Except.map]
  cases op.callOf args with
  | error fault => rfl
  | ok call =>
    simp only [perform, invoke]
    cases RemoteValue.encodeArgs call.wireArgs with
    | error fault => rfl
    | ok texts =>
      -- what is left to do depends on how the call ends
      simp only [bind, StateT.bind]
      generalize c.call call.wireName (texts.map .str) .reflection = answered
      obtain ⟨c', result⟩ := answered
      cases result <;> rfl

/-- **Who is refused is not heard.** -/
theorem run_of_refuses {fault : KeywordFault} (h : op.Refuses args c fault) :
    op.run Context.port args c = (.fault fault, c) := by
  cases h with
  | count hcount =>
    unfold run
    rw [checkCount_of_not_takes hcount]
    rfl
  | noSession hcount hlink =>
    have hattached : c.session = .error (.noSession c.deviceId) := by
      rw [Context.session, hlink]
    unfold run
    rw [checkCount_of_takes hcount]
    simp only [bind, StateT.bind, Context.port, hattached, Except.map]
    rfl
  | misnamed hcount hlink hnames =>
    rw [run_of_link hcount hlink, callOf_of_misnames hcount hnames]
  | unsendable hcount hlink hnames hsent hbefore hv =>
    obtain ⟨call, hcall, _, hargs⟩ := exists_callOf hcount hnames
    rw [run_of_link hcount hlink, hcall]
    dsimp only
    rw [hargs, hsent, RemoteValue.encodeArgs_of_unsendable hbefore hv]
  | @closed link hcount hlink hnames hsendable hclosed =>
    obtain ⟨call, hcall, hname, hargs⟩ := exists_callOf hcount hnames
    obtain ⟨texts, htexts, _⟩ := RemoteValue.encodeArgs_of_sendable hsendable
    rw [run_of_link hcount hlink, hcall]
    dsimp only
    rw [hargs, htexts]
    dsimp only
    unfold Context.call
    rw [hlink]
    dsimp only
    rw [Link.call_of_closed _ hclosed]
    cases c
    cases hlink
    rfl

/-- Every keyword that is not refused has an open session and can send its arguments. -/
theorem refuses_or_open (op : Operation) (args : List RemoteValue) (c : Context) :
    (∃ fault, op.Refuses args c fault) ∨
    ∃ link, c.link = some link ∧ op.Takes args.length ∧ op.Names args ∧
      (∀ v ∈ op.sent args, v.isSendable = true) ∧ link.session.closed = false := by
  by_cases hcount : op.Takes args.length
  · cases hlink : c.link with
    | none => exact Or.inl ⟨_, .noSession hcount hlink⟩
    | some link =>
      rcases callOf_cases hcount with ⟨hnames, _⟩ | ⟨message, hmisnames, _⟩
      · cases hfind : (op.sent args).find? fun v => !v.isSendable with
        | none =>
          have hsendable : ∀ v ∈ op.sent args, v.isSendable = true := by
            intro v hv
            simpa using List.find?_eq_none.1 hfind v hv
          cases hclosed : link.session.closed with
          | true => exact Or.inl ⟨_, .closed hcount hlink hnames hsendable hclosed⟩
          | false => exact Or.inr ⟨link, rfl, hcount, hnames, hsendable, hclosed⟩
        | some v =>
          obtain ⟨hv, before, after, hsent, hbefore⟩ := List.find?_eq_some_iff_append.1 hfind
          have hsendable : ∀ u ∈ before, u.isSendable = true := by
            intro u hu
            simpa using hbefore u hu
          exact Or.inl ⟨_, .unsendable hcount hlink hnames hsent hsendable (by simpa using hv)⟩
      · exact Or.inl ⟨_, .misnamed hcount hlink hmisnames⟩
  · exact Or.inl ⟨_, .count hcount⟩

/-- And a keyword with an open session that can send its arguments is not refused. -/
theorem not_refuses_of_open {fault : KeywordFault} (hcount : op.Takes args.length)
    (hlink : c.link = some link) (hnames : op.Names args)
    (hsendable : ∀ v ∈ op.sent args, v.isSendable = true) (hopen : link.session.closed = false) :
    ¬op.Refuses args c fault := by
  intro h
  cases h with
  | count hcount' => exact hcount' hcount
  | noSession _ hlink' => exact absurd (hlink.symm.trans hlink') (by simp)
  | misnamed _ _ hmisnames => exact hmisnames.not_names hnames
  | unsendable _ _ _ hsent _ hv =>
    have hmem := hsendable _ (hsent ▸ List.mem_append_right _ List.mem_cons_self)
    exact absurd (hmem.symm.trans hv) (by simp)
  | closed _ hlink' _ _ hclosed =>
    cases hlink.symm.trans hlink'
    exact absurd (hclosed.symm.trans hopen) (by simp)

/-- The call of a keyword as the device gets it. -/
theorem decodeFrame_call (id : UInt64) (name : String) (texts : List String) :
    decodeFrame (encodeFrame (Message.call id name (texts.map .str) .reflection))
      = .ok (Message.call id name (texts.map .str) .reflection) := by
  refine Wire.decodeFrame_encodeFrame (fun j hj => ?_) (fun j hj => ?_)
  · obtain ⟨text, _, rfl⟩ := List.mem_map.1 hj
    exact ⟨Nat.zero_le _, trivial⟩
  · obtain ⟨text, _, rfl⟩ := List.mem_map.1 hj
    exact fun _ hn => absurd hn List.not_mem_nil

/-- What a keyword that is not refused does to its session: it takes one id, and if there is a
writer it gets one frame. The device reads the frame as the call, and each of its arguments as the
script had it. -/
structure Sends (op : Operation) (args : List RemoteValue) (s s' : Session) : Prop where
  lastId : s'.lastId = s.lastId + 1
  frame : s.writerOpen = true → ∃ (frame : String) (texts : List String),
    s'.frames = s.frames ++ [frame] ∧
    decodeFrame frame
      = .ok (Message.call (s.lastId + 1) op.wireName (texts.map .str) .reflection) ∧
    ((∀ v ∈ args, v.ReadsBack) →
      texts.map RemoteValue.decodeArg = (op.sent args).map fun v => .ok v.bare)

/-- **Who is not refused is heard.** -/
theorem run_of_open (hcount : op.Takes args.length) (hlink : c.link = some link)
    (hnames : op.Names args) (hsendable : ∀ v ∈ op.sent args, v.isSendable = true)
    (hopen : link.session.closed = false) :
    ∃ (link' : Link) (outcome : Outcome),
      op.run Context.port args c = (outcome, { c with link := some link' }) ∧
      op.Sends args link.session link'.session ∧
      (link.session.writerOpen = false → link'.session.outbox = link.session.outbox ∧
        outcome = .fault (.call (.connectionClosed link.session.deviceId))) := by
  obtain ⟨call, hcall, hname, hargs⟩ := exists_callOf hcount hnames
  obtain ⟨texts, htexts, hback⟩ := RemoteValue.encodeArgs_of_sendable hsendable
  let r : Request := ⟨op.wireName, texts.map .str, link.session.defaultTimeout, .reflection⟩
  have hcalled : c.call op.wireName (texts.map .str) .reflection
      = ({ c with link := some (link.call r).1 }, (link.call r).2) := by
    unfold Context.call
    rw [hlink]
  refine ⟨(link.call r).1, outcomeOf (link.call r).2, ?_, ?_⟩
  · rw [run_of_link hcount hlink, hcall]
    dsimp only
    rw [hargs, htexts, hname]
    dsimp only
    rw [hcalled]
  · cases hwriter : link.session.writerOpen with
    | true =>
      have hhears := link.hears_call r hopen hwriter
      refine ⟨⟨hhears.lastId, fun _ => ⟨_, texts, ?_, decodeFrame_call .., fun hreals => ?_⟩⟩,
        nofun⟩
      · rw [Session.frames, hhears.outbox]
        exact List.map_append
      · exact hback (forall_mem_sent (fun hreal => hreal.asClass) hreals)
    | false =>
      rw [Link.call_of_no_writer r hopen hwriter]
      exact ⟨⟨rfl, fun hopened => absurd (hwriter.symm.trans hopened) (by simp)⟩,
        fun _ => ⟨rfl, rfl⟩⟩

/-- **A reflection keyword sends all or nothing.** Whatever its arguments and its context, either it
is refused and changes nothing, or it has an open session and sends one call that says what the
script said. Each reason to refuse has its own fault, the first value that cannot be an argument
included. -/
theorem keywords_send_all_or_nothing (op : Operation) (args : List RemoteValue) (c : Context) :
    (∀ fault, op.Refuses args c fault → op.run Context.port args c = (.fault fault, c)) ∧
    ((∃ fault, op.Refuses args c fault) ∨
      ∃ (link link' : Link) (outcome : Outcome),
        c.link = some link ∧ link.session.closed = false ∧
        op.run Context.port args c = (outcome, { c with link := some link' }) ∧
        op.Sends args link.session link'.session ∧
        (link.session.writerOpen = false → link'.session.outbox = link.session.outbox ∧
          outcome = .fault (.call (.connectionClosed link.session.deviceId)))) := by
  refine ⟨fun fault h => run_of_refuses h, ?_⟩
  rcases refuses_or_open op args c with h | ⟨link, hlink, hcount, hnames, hsendable, hopen⟩
  · exact Or.inl h
  · obtain ⟨link', outcome, hrun, hsends⟩ := run_of_open hcount hlink hnames hsendable hopen
    exact Or.inr ⟨link, link', outcome, hlink, hopen, hrun, hsends⟩

/-- One and a half is read back from its text. -/
theorem readsBack_oneAndAHalf : (RemoteValue.float ⟨0x3FF8000000000000⟩).ReadsBack := by
  rintro x ⟨rfl⟩
  cbv

/-- A constructor call with a number and with a handle that has attributes is sent, and the device
gets the class, the number and the bare handle. With a record and a list among its arguments it is
refused for the record. -/
theorem construct_sent_and_refused :
    (∃ (outcome : Outcome) (link' : Link) (texts : List String),
      construct.run Context.port
          [.str "Car", .float ⟨0x3FF8000000000000⟩,
            .object ⟨7, "Wheel", (∅ : Table Json).insert "size" .null⟩]
          ⟨"d", ∅, some ⟨.connect "d" none ⟨5⟩, []⟩⟩
        = (outcome, ⟨"d", ∅, some link'⟩) ∧
      link'.session.frames.map decodeFrame
        = [.ok (Message.call 1 "new" (texts.map .str) .reflection)] ∧
      texts.map RemoteValue.decodeArg = [.ok (.classRef "Car"), .ok (.float ⟨0x3FF8000000000000⟩),
        .ok (.object ⟨7, "Wheel", ∅⟩)]) ∧
    construct.run Context.port [.str "Car", .record ∅, .list []]
        ⟨"d", ∅, some ⟨.connect "d" none ⟨5⟩, []⟩⟩
      = (.fault (.call (.argument (.unsupported "record"))),
          ⟨"d", ∅, some ⟨.connect "d" none ⟨5⟩, []⟩⟩) := by
  have hcar : ∀ rest, construct.Names (.str "Car" :: rest) := by
    refine fun rest => ⟨?_, fun hmember => absurd hmember (by decide)⟩
    rintro - v ⟨rfl⟩
    exact ⟨"Car", by decide, Or.inl rfl⟩
  constructor
  · have hall := keywords_send_all_or_nothing construct
      [.str "Car", .float ⟨0x3FF8000000000000⟩,
        .object ⟨7, "Wheel", (∅ : Table Json).insert "size" .null⟩]
      ⟨"d", ∅, some ⟨.connect "d" none ⟨5⟩, []⟩⟩
    rcases hall.2 with ⟨fault, hrefuses⟩ | ⟨link, link', outcome, hlink, _, hrun, hsends, _⟩
    · refine absurd hrefuses (not_refuses_of_open ?_ rfl (hcar _) ?_ rfl)
      · exact Nat.le_add_left 1 2
      · simp [sent, startsWithClass, RemoteValue.asClass, RemoteValue.isSendable]
    · cases hlink
      obtain ⟨frame, texts, hframes, hdecode, hback⟩ := hsends.frame rfl
      refine ⟨outcome, link', texts, hrun, ?_, hback ?_⟩
      · rw [hframes]
        exact congrArg (fun d => [d]) hdecode
      · simp only [List.forall_mem_cons]
        refine ⟨?_, readsBack_oneAndAHalf, ?_, ?_⟩ <;> simp [RemoteValue.ReadsBack]
  · have hall := keywords_send_all_or_nothing construct [.str "Car", .record ∅, .list []]
      ⟨"d", ∅, some ⟨.connect "d" none ⟨5⟩, []⟩⟩
    have hbefore : ∀ u ∈ [RemoteValue.classRef "Car"], u.isSendable = true := by
      simp [RemoteValue.isSendable]
    refine hall.1 _ (.unsendable ?_ rfl (hcar _) rfl hbefore rfl)
    exact Nat.le_add_left 1 2

end Operation

end Reflection

end KeywordRunner
