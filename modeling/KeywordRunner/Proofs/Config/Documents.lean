import KeywordRunner.Config.Storage
import KeywordRunner.Proofs.Json.Documents

/-!
# Proofs.Config.Documents — what a settings file may leave out

A settings file gives some of the settings and leaves out the others, whole sections or fields of a
section. `IsDocument` says that a text gives just the selected settings, however it is written: in
any order, with blanks and escapes wherever JSON admits them, and among fields that this library
does not know. What it leaves out has its default.

* **`load_document`** — such a file is loaded to the selected settings and the defaults of the others.
* **`isDocument_encode`** — the file that saving writes gives every setting.
* **`settings_come_back`** — both, and what becomes of documents newer than this library.
-/

namespace KeywordRunner.Config

open Json (Reads ObjectText Gives Omits SaysIf Suits IsBlank IsValue StringText metOf)

/-- Which of the settings a document gives. -/
structure Selection where
  version : Bool
  bindAddress : Bool
  port : Bool
  callTimeout : Bool
  registrationWait : Bool
  filter : Bool

/-- All settings. -/
def Selection.all : Selection := ⟨true, true, true, true, true, true⟩

namespace Settings

/-- The selected settings of `s`, and the default of all others. -/
def only (s : Settings) (selected : Selection) : Settings where
  version := if selected.version then s.version else default.version
  server := {
    bindAddress :=
      if selected.bindAddress then s.server.bindAddress else default.server.bindAddress
    port := if selected.port then s.server.port else default.server.port }
  calls := {
    callTimeoutSeconds :=
      if selected.callTimeout then s.calls.callTimeoutSeconds else default.calls.callTimeoutSeconds
    registrationWaitSeconds :=
      if selected.registrationWait then s.calls.registrationWaitSeconds
      else default.calls.registrationWaitSeconds }
  logging := { filter := if selected.filter then s.logging.filter else default.logging.filter }

theorem only_all (s : Settings) : s.only .all = s := rfl

/-! ## Documents -/

/-- The numeral of a number. -/
def NaturalText (n : Nat) (text : List Char) : Prop := text = Digits.write n

/-- A text of the section on the server, with its selected fields and any others that it does not
know. -/
def ServerText (s : Settings) (selected : Selection) (text : List Char) : Prop :=
  ∃ members, ObjectText members text ∧
    SaysIf members "bind_address" selected.bindAddress (StringText s.server.bindAddress) ∧
    SaysIf members "port" selected.port (NaturalText s.server.port.toNat) ∧
    ∀ m ∈ members, m.1 ∉ ["bind_address", "port"] → IsValue m.2

def CallsText (s : Settings) (selected : Selection) (text : List Char) : Prop :=
  ∃ members, ObjectText members text ∧
    SaysIf members "call_timeout_secs" selected.callTimeout
      (NaturalText s.calls.callTimeoutSeconds.toNat) ∧
    SaysIf members "registration_wait_secs" selected.registrationWait
      (NaturalText s.calls.registrationWaitSeconds.toNat) ∧
    ∀ m ∈ members, m.1 ∉ ["call_timeout_secs", "registration_wait_secs"] → IsValue m.2

def LoggingText (s : Settings) (selected : Selection) (text : List Char) : Prop :=
  ∃ members, ObjectText members text ∧
    SaysIf members "filter" selected.filter (StringText s.logging.filter) ∧
    ∀ m ∈ members, m.1 ∉ ["filter"] → IsValue m.2

/-- Members give a section, or leave it out when none of its fields is selected. -/
def SaysSection (members : List (String × List Char)) (name : String) (needed : Bool)
    (P : List Char → Prop) : Prop :=
  Gives members name P ∨ needed = false ∧ Omits members name

/-- A text of the document that gives the selected settings, as they are in `s`. -/
def DocumentText (s : Settings) (selected : Selection) (text : List Char) : Prop :=
  ∃ members, ObjectText members text ∧
    SaysIf members "version" selected.version (NaturalText s.version.toNat) ∧
    SaysSection members "server" (selected.bindAddress || selected.port)
      (s.ServerText selected) ∧
    SaysSection members "rpc" (selected.callTimeout || selected.registrationWait)
      (s.CallsText selected) ∧
    SaysSection members "logging" selected.filter (s.LoggingText selected) ∧
    ∀ m ∈ members, m.1 ∉ ["version", "server", "rpc", "logging"] → IsValue m.2

/-- A text is such a document, with blanks around it. -/
def IsDocument (s : Settings) (selected : Selection) (text : String) : Prop :=
  ∃ before core after, IsBlank before ∧ s.DocumentText selected core ∧ IsBlank after ∧
    text.toList = before ++ (core ++ after)

/-! ## Fields -/

section Fields

variable {σ τ : Type} {name : String} {depth : Nat} {members : List (String × List Char)}
  {value : List String → σ} {given : Bool}

theorem suits_textField {set : String → σ → σ} {v : String}
    (h : SaysIf members name given (StringText v))
    (hupdate : ∀ met, set v (value met) = value (name :: met)) :
    Suits members value depth (textField name set) := by
  refine h.omits_or_gives.imp_right fun h => h.imp fun text htext => ⟨set v, ?_, hupdate⟩
  intro blank rest hblank hends
  show (Json.readString (blank ++ (text ++ rest)) >>= _) = _
  rw [Json.reads_string htext blank rest hblank hends]
  rfl

theorem suits_naturalField {limit n : Nat} {set : Nat → σ → σ} (hlimit : limit < UInt64.size)
    (hn : n ≤ limit) (h : SaysIf members name given (NaturalText n))
    (hupdate : ∀ met, set n (value met) = value (name :: met)) :
    Suits members value depth (naturalField name limit set) := by
  refine h.omits_or_gives.imp_right fun h => h.imp fun text htext => ⟨set n, ?_, hupdate⟩
  intro blank rest hblank hends
  rw [htext]
  show (Json.readNatural limit (blank ++ (Digits.write n ++ rest)) >>= _) = _
  rw [Json.reads_natural hlimit hn blank rest hblank hends]
  rfl

theorem suits_sectionField {fields : List (Json.Field Empty τ)} {initial x : τ}
    {set : τ → σ → σ} {P : List Char → Prop} (h : SaysSection members name given P)
    (hread : ∀ text, P text → Reads (Json.readRecord fields initial depth) text x)
    (hupdate : ∀ met, set x (value met) = value (name :: met)) :
    Suits members value depth (sectionField name fields initial set) := by
  rcases h with h | ⟨_, homits⟩
  · refine Or.inr (h.imp fun text htext => ⟨set x, ?_, hupdate⟩)
    intro blank rest hblank hends
    show (Json.readRecord fields initial depth (blank ++ (text ++ rest)) >>= _) = _
    rw [hread text htext blank rest hblank hends]
    rfl
  · exact Or.inl homits

end Fields

/-! ## Sections

A section is followed by the names that have been met in it.
-/

section Sections

variable {s : Settings} {selected : Selection} {text : List Char} {depth : Nat}

def serverOf (s : Settings) (met : List String) : ServerSettings where
  bindAddress := if "bind_address" ∈ met then s.server.bindAddress else default.server.bindAddress
  port := if "port" ∈ met then s.server.port else default.server.port

def callsOf (s : Settings) (met : List String) : CallSettings where
  callTimeoutSeconds :=
    if "call_timeout_secs" ∈ met then s.calls.callTimeoutSeconds
    else default.calls.callTimeoutSeconds
  registrationWaitSeconds :=
    if "registration_wait_secs" ∈ met then s.calls.registrationWaitSeconds
    else default.calls.registrationWaitSeconds

def loggingOf (s : Settings) (met : List String) : LoggingSettings where
  filter := if "filter" ∈ met then s.logging.filter else default.logging.filter

def settingsOf (s : Settings) (selected : Selection) (met : List String) : Settings where
  version := if "version" ∈ met then s.version else default.version
  server := if "server" ∈ met then (s.only selected).server else default.server
  calls := if "rpc" ∈ met then (s.only selected).calls else default.calls
  logging := if "logging" ∈ met then (s.only selected).logging else default.logging

theorem reads_server (h : s.ServerText selected text) :
    Reads (Json.readRecord serverFields .default (depth + 1)) text (s.only selected).server := by
  obtain ⟨members, hobject, haddress, hport, hothers⟩ := h
  have hlimit : s.server.port.toNat ≤ UInt16.size - 1 := Nat.le_pred_of_lt s.server.port.toNat_lt
  have hfields : ∀ f ∈ serverFields, Suits members s.serverOf depth f :=
    List.forall_mem_cons.2
      ⟨suits_textField haddress fun met => by simp [serverOf], List.forall_mem_singleton.2
        (suits_naturalField (by decide) hlimit hport fun met => by simp [serverOf])⟩
  have hvalue : s.serverOf (metOf (serverFields.map (·.name)) members)
      = (s.only selected).server := by
    have hnames : serverFields.map (·.name) = ["bind_address", "port"] := rfl
    simp [hnames, serverOf, only, haddress.mem_metOf, hport.mem_metOf]
  rw [← hvalue]
  exact Json.readRecord_text hfields hothers hobject

theorem reads_calls (h : s.CallsText selected text) :
    Reads (Json.readRecord callFields .default (depth + 1)) text (s.only selected).calls := by
  obtain ⟨members, hobject, htimeout, hwait, hothers⟩ := h
  have hlimit : ∀ n : UInt64, n.toNat ≤ UInt64.size - 1 := fun n => Nat.le_pred_of_lt n.toNat_lt
  have hfields : ∀ f ∈ callFields, Suits members s.callsOf depth f :=
    List.forall_mem_cons.2
      ⟨suits_naturalField (by decide) (hlimit _) htimeout fun met => by simp [callsOf],
        List.forall_mem_singleton.2
          (suits_naturalField (by decide) (hlimit _) hwait fun met => by simp [callsOf])⟩
  have hvalue : s.callsOf (metOf (callFields.map (·.name)) members) = (s.only selected).calls := by
    have hnames : callFields.map (·.name) = ["call_timeout_secs", "registration_wait_secs"] := rfl
    simp [hnames, callsOf, only, htimeout.mem_metOf, hwait.mem_metOf]
  rw [← hvalue]
  exact Json.readRecord_text hfields hothers hobject

theorem reads_logging (h : s.LoggingText selected text) :
    Reads (Json.readRecord loggingFields .default (depth + 1)) text (s.only selected).logging := by
  obtain ⟨members, hobject, hfilter, hothers⟩ := h
  have hfields : ∀ f ∈ loggingFields, Suits members s.loggingOf depth f :=
    List.forall_mem_singleton.2 (suits_textField hfilter fun met => by simp [loggingOf])
  have hvalue : s.loggingOf (metOf (loggingFields.map (·.name)) members)
      = (s.only selected).logging := by
    have hnames : loggingFields.map (·.name) = ["filter"] := rfl
    simp [hnames, loggingOf, only, hfilter.mem_metOf]
  rw [← hvalue]
  exact Json.readRecord_text hfields hothers hobject

/-- What a section comes to, given or left out. -/
theorem section_value {α : Type} {members : List (String × List Char)} {name : String}
    {known : List String} {needed : Bool} {P : List Char → Prop} {x initial : α}
    (h : SaysSection members name needed P) (hknown : name ∈ known)
    (hinitial : needed = false → x = initial) :
    (if name ∈ metOf known members then x else initial) = x := by
  rcases h with hgives | ⟨hneeded, homits⟩
  · exact if_pos (Json.mem_metOf.2 ⟨hknown, hgives.mem⟩)
  · rw [hinitial hneeded]
    exact ite_self _

/-- A section of which nothing is selected has its defaults. -/
theorem server_only_of_none (h : (selected.bindAddress || selected.port) = false) :
    (s.only selected).server = default.server := by
  obtain ⟨haddress, hport⟩ := Bool.or_eq_false_iff.1 h
  simp [only, haddress, hport]

theorem calls_only_of_none (h : (selected.callTimeout || selected.registrationWait) = false) :
    (s.only selected).calls = default.calls := by
  obtain ⟨htimeout, hwait⟩ := Bool.or_eq_false_iff.1 h
  simp [only, htimeout, hwait]

theorem logging_only_of_none (h : selected.filter = false) :
    (s.only selected).logging = default.logging := by
  simp [only, h]

theorem reads_document (h : s.DocumentText selected text) :
    Reads (Json.readRecord fields .default (depth + 2)) text (s.only selected) := by
  obtain ⟨members, hobject, hversion, hserver, hcalls, hlogging, hothers⟩ := h
  have hlimit : s.version.toNat ≤ UInt32.size - 1 := Nat.le_pred_of_lt s.version.toNat_lt
  have hfields : ∀ f ∈ fields, Suits members (s.settingsOf selected) (depth + 1) f :=
    List.forall_mem_cons.2
      ⟨suits_naturalField (by decide) hlimit hversion fun met => by simp [settingsOf],
      List.forall_mem_cons.2
      ⟨suits_sectionField hserver (fun _ => reads_server) fun met => by simp [settingsOf],
      List.forall_mem_cons.2
      ⟨suits_sectionField hcalls (fun _ => reads_calls) fun met => by simp [settingsOf],
      List.forall_mem_singleton.2
        (suits_sectionField hlogging (fun _ => reads_logging) fun met => by simp [settingsOf])⟩⟩⟩
  have hvalue : s.settingsOf selected (metOf (fields.map (·.name)) members) = s.only selected := by
    have hnames : fields.map (·.name) = ["version", "server", "rpc", "logging"] := rfl
    rw [hnames, settingsOf, section_value hserver (by decide) server_only_of_none,
      section_value hcalls (by decide) calls_only_of_none,
      section_value hlogging (by decide) logging_only_of_none]
    simp [hversion.mem_metOf, only]
  rw [← hvalue]
  exact Json.readRecord_text hfields hothers hobject

theorem parse_document {text : String} (h : s.IsDocument selected text) :
    parse text = .ok (s.only selected) := by
  obtain ⟨before, core, after, hbefore, hcore, hafter, htext⟩ := h
  have hreads : Reads (Json.readRecord fields .default (125 + 2)) core (s.only selected) :=
    reads_document hcore
  have hread := hreads before (after ++ []) hbefore (Json.ends_blank hafter Json.ends_nil)
  rw [List.append_nil] at hread
  unfold parse Json.parseRecord Json.readAll
  show (Json.readRecord fields .default 127 text.toList >>= _) = _
  rw [htext, hread, Json.ok_bind]
  dsimp only
  rw [← List.append_nil after, Json.skipSpace_blank hafter]
  rfl

end Sections

/-! ## The document that is written -/

theorem writePretty_natural {level n : Nat} (h : n < UInt64.size) :
    Json.writePretty level (natural n) = Digits.write n := by
  have hnat : (UInt64.ofNat n).toNat = n := UInt64.toNat_ofNat_of_lt' h
  show Signed.write ((UInt64.ofNat n).toNat : Int) = _
  rw [hnat]
  rfl

theorem serverText_pretty (s : Settings) :
    s.ServerText .all (Json.writePretty 1 (.obj [
      ("bind_address", .str s.server.bindAddress), ("port", natural s.server.port.toNat)])) := by
  have hport : s.server.port.toNat < UInt64.size :=
    Nat.lt_trans s.server.port.toNat_lt (by decide)
  refine ⟨_, Json.objectText_pretty 1 _, ⟨_, rfl, ?_⟩, ⟨_, rfl, ?_⟩, by simp⟩
  · exact Json.stringText_write s.server.bindAddress
  · exact writePretty_natural hport

theorem callsText_pretty (s : Settings) :
    s.CallsText .all (Json.writePretty 1 (.obj [
      ("call_timeout_secs", natural s.calls.callTimeoutSeconds.toNat),
      ("registration_wait_secs", natural s.calls.registrationWaitSeconds.toNat)])) := by
  refine ⟨_, Json.objectText_pretty 1 _, ⟨_, rfl, ?_⟩, ⟨_, rfl, ?_⟩, by simp⟩
  · exact writePretty_natural s.calls.callTimeoutSeconds.toNat_lt
  · exact writePretty_natural s.calls.registrationWaitSeconds.toNat_lt

theorem loggingText_pretty (s : Settings) :
    s.LoggingText .all (Json.writePretty 1 (.obj [("filter", .str s.logging.filter)])) := by
  refine ⟨_, Json.objectText_pretty 1 _, ⟨_, rfl, ?_⟩, by simp⟩
  exact Json.stringText_write s.logging.filter

/-- **The file that saving writes is a document of all settings.** -/
theorem isDocument_encode (s : Settings) : s.IsDocument .all (encode s) := by
  have hversion : s.version.toNat < UInt64.size := Nat.lt_trans s.version.toNat_lt (by decide)
  refine ⟨[], Json.writePretty 0 s.toJson, [], Json.isBlank_nil, ?_, Json.isBlank_nil, ?_⟩
  · refine ⟨_, Json.objectText_pretty 0 _, ⟨_, rfl, ?_⟩, Or.inl ⟨_, rfl, ?_⟩,
      Or.inl ⟨_, rfl, ?_⟩, Or.inl ⟨_, rfl, ?_⟩, by simp⟩
    · exact writePretty_natural hversion
    · exact s.serverText_pretty
    · exact s.callsText_pretty
    · exact s.loggingText_pretty
  · rw [encode, Json.pretty, String.toList_ofList, List.nil_append, List.append_nil]

/-! ## Every selection has a document -/

/-- A member that is given or not. -/
def optional (given : Bool) (name : String) (text : List Char) : List (String × List Char) :=
  if given then [(name, text)] else []

theorem exists_serverText (s : Settings) (selected : Selection) :
    ∃ text, s.ServerText selected text := by
  have haddress := Json.stringText_write s.server.bindAddress
  obtain ⟨text, hobject⟩ := Json.exists_objectText
    (optional selected.bindAddress "bind_address" (Json.writeString s.server.bindAddress) ++
      optional selected.port "port" (Digits.write s.server.port.toNat))
  refine ⟨text, _, hobject, ?_⟩
  cases selected.bindAddress <;> cases selected.port <;>
    simp [optional, SaysIf, Gives, Omits, NaturalText, haddress]

theorem exists_callsText (s : Settings) (selected : Selection) :
    ∃ text, s.CallsText selected text := by
  obtain ⟨text, hobject⟩ := Json.exists_objectText
    (optional selected.callTimeout "call_timeout_secs"
        (Digits.write s.calls.callTimeoutSeconds.toNat) ++
      optional selected.registrationWait "registration_wait_secs"
        (Digits.write s.calls.registrationWaitSeconds.toNat))
  refine ⟨text, _, hobject, ?_⟩
  cases selected.callTimeout <;> cases selected.registrationWait <;>
    simp [optional, SaysIf, Gives, Omits, NaturalText]

theorem exists_loggingText (s : Settings) (selected : Selection) :
    ∃ text, s.LoggingText selected text := by
  have hfilter := Json.stringText_write s.logging.filter
  obtain ⟨text, hobject⟩ := Json.exists_objectText
    (optional selected.filter "filter" (Json.writeString s.logging.filter))
  refine ⟨text, _, hobject, ?_⟩
  cases selected.filter <;> simp [optional, SaysIf, Gives, Omits, hfilter]

theorem exists_document (s : Settings) (selected : Selection) :
    ∃ text, s.IsDocument selected text := by
  obtain ⟨server, hserver⟩ := s.exists_serverText selected
  obtain ⟨calls, hcalls⟩ := s.exists_callsText selected
  obtain ⟨logging, hlogging⟩ := s.exists_loggingText selected
  obtain ⟨text, hobject⟩ := Json.exists_objectText
    (optional selected.version "version" (Digits.write s.version.toNat) ++
      [("server", server), ("rpc", calls), ("logging", logging)])
  refine ⟨String.ofList text, [], text, [], Json.isBlank_nil, ⟨_, hobject, ?_⟩, Json.isBlank_nil,
    by rw [String.toList_ofList, List.nil_append, List.append_nil]⟩
  cases selected.version <;>
    simp [optional, SaysIf, SaysSection, Gives, Omits, NaturalText, hserver, hcalls, hlogging]

/-! ## Files -/

theorem load_document {s : Settings} {selected : Selection} {text : String} (path : String)
    (h : s.IsDocument selected text) :
    load path (.text text) =
      if currentVersion < (s.only selected).version then
        .error (.unsupportedVersion (s.only selected).version)
      else .ok (s.only selected) := by
  unfold load decode
  dsimp only
  rw [parse_document h]

/-- Leaving the version out cannot make a document newer than this library. -/
theorem version_only_le {s : Settings} (h : s.version ≤ currentVersion) (selected : Selection) :
    (s.only selected).version ≤ currentVersion := by
  show (if selected.version then s.version else default.version) ≤ currentVersion
  split
  · exact h
  · exact UInt32.le_refl currentVersion

/-- **Settings come back from their files, whole or in part.** Any of the settings can be selected
for a document. However it is written and whatever it holds besides, it is loaded to these and the
defaults of all others; the file that saving writes is loaded to the settings that were saved; and
if their version is newer than this library, that file is refused with it. -/
theorem settings_come_back :
    (∀ (s : Settings) (selected : Selection), ∃ text, s.IsDocument selected text) ∧
    (∀ (path : String) (s : Settings) (selected : Selection) (text : String),
      s.version ≤ currentVersion → s.IsDocument selected text →
        load path (.text text) = .ok (s.only selected)) ∧
    (∀ (path : String) (s : Settings), s.version ≤ currentVersion →
      load path (.text (encode s)) = .ok s) ∧
    ∀ (path : String) (s : Settings), currentVersion < s.version →
      load path (.text (encode s)) = .error (.unsupportedVersion s.version) := by
  refine ⟨exists_document, fun path s selected text hversion h => ?_, fun path s hversion => ?_,
    fun path s hversion => ?_⟩
  · rw [load_document path h, if_neg (UInt32.not_lt.2 (version_only_le hversion selected))]
  · rw [load_document path s.isDocument_encode, only_all, if_neg (UInt32.not_lt.2 hversion)]
  · rw [load_document path s.isDocument_encode, only_all, if_pos hversion]

/-- A document of two settings in two sections, in another order than they are written in: among
members that nothing knows, with blanks here and there, and with a name that is spelt with an
escape. -/
def mixedDocument : String :=
  "\n\x7b\"more\": [1e999, \"\\ud800\"],\r\n\"rpc\" : \x7b\"call_timeout_secs\":5\x7d," ++
    "\"ser\\u0076er\":\x7b\"port\" :12000\x7d\t\x7d "

/-- Half of a surrogate pair, and a number beyond every binary64 number. -/
theorem isValue_skipped : IsValue "[1e999, \"\\ud800\"]".toList := by
  have hnumber : IsValue ['1', 'e', '9', '9', '9'] :=
    .number ⟨[], ['1'], [], ['e', '9', '9', '9'], by simp, by simp [Json.IsWhole, Json.IsDigits],
      .inl rfl, .inr ⟨'e', [], ['9', '9', '9'], by simp [Json.IsDigits]⟩, rfl⟩
  have hsurrogate : Json.IsHex4 0xD800 ['d', '8', '0', '0'] :=
    .cons ⟨by decide, .inl rfl⟩ (.cons ⟨by decide, .inl rfl⟩ (.cons ⟨by decide, .inl rfl⟩
      (.cons ⟨by decide, .inl rfl⟩ .nil)))
  have hstring : IsValue ['"', '\\', 'u', 'd', '8', '0', '0', '"'] :=
    .string ⟨[_], List.forall_mem_singleton.2 (.numeric hsurrogate), rfl⟩
  exact Json.Derives.array (.moreElements (.element Json.isBlank_nil hnumber Json.isBlank_nil)
    (.lastElement (.element Json.isBlank_space hstring Json.isBlank_nil)))

theorem stringText_server :
    StringText "server" ['"', 's', 'e', 'r', '\\', 'u', '0', '0', '7', '6', 'e', 'r', '"'] := by
  have hescape : Json.IsHex4 ('v').toNat ['0', '0', '7', '6'] :=
    .cons ⟨by decide, .inl rfl⟩ (.cons ⟨by decide, .inl rfl⟩ (.cons ⟨by decide, .inl rfl⟩
      (.cons ⟨by decide, .inl rfl⟩ .nil)))
  have hplain : ∀ c ∈ ['s', 'e', 'r'], Json.CharText c [c] := by
    intro c hc
    fin_cases hc <;> exact .plain (by decide) (by decide) (by decide)
  have hchars : List.Forall₂ Json.CharText ['s', 'e', 'r', 'v', 'e', 'r']
      [['s'], ['e'], ['r'], ['\\', 'u', '0', '0', '7', '6'], ['e'], ['r']] :=
    .cons (hplain _ (by simp)) (.cons (hplain _ (by simp)) (.cons (hplain _ (by simp))
      (.cons (.numeric hescape) (.cons (hplain _ (by simp)) (.cons (hplain _ (by simp)) .nil)))))
  exact ⟨_, hchars, rfl⟩

theorem isDocument_mixed : IsDocument ⟨1, ⟨"", 12000⟩, ⟨5, 0⟩, ⟨""⟩⟩
    ⟨false, false, true, true, false, false⟩ mixedDocument := by
  have hnone := Json.isBlank_nil
  have hspace := Json.isBlank_space
  have hlines : IsBlank ['\r', '\n'] := by simp [IsBlank]
  have hbefore : IsBlank ['\n'] := by simp [IsBlank]
  have htab : IsBlank ['\t'] := by simp [IsBlank]
  have hcalls : ∀ x ∈ [(("call_timeout_secs", ['5']),
      Json.writeString "call_timeout_secs" ++ [':', '5'])], Json.MemberText x.1 x.2 :=
    List.forall_mem_singleton.2 (Json.memberText_tight _)
  have hserver : ∀ x ∈ [(("port", ['1', '2', '0', '0', '0']),
      Json.writeString "port" ++ [' ', ':', '1', '2', '0', '0', '0'])], Json.MemberText x.1 x.2 :=
    List.forall_mem_singleton.2 ⟨[], _, [' '], [], [], hnone, Json.stringText_write "port", hspace,
      hnone, hnone, rfl⟩
  have hmembers : ∀ more calls server : List Char, ∀ x ∈ [
      (("more", more), Json.writeString "more" ++ ':' :: ' ' :: more),
      (("rpc", calls), '\r' :: '\n' :: (Json.writeString "rpc" ++ ' ' :: ':' :: ' ' :: calls)),
      (("server", server), ['"', 's', 'e', 'r', '\\', 'u', '0', '0', '7', '6', 'e', 'r', '"'] ++
        ':' :: (server ++ ['\t']))], Json.MemberText x.1 x.2 := by
    intro more calls server
    refine List.forall_mem_cons.2 ⟨⟨[], _, [], [' '], [], hnone, Json.stringText_write "more",
        hnone, hspace, hnone, by rw [List.append_nil]; rfl⟩,
      List.forall_mem_cons.2 ⟨⟨['\r', '\n'], _, [' '], [' '], [], hlines,
        Json.stringText_write "rpc", hspace, hspace, hnone, by rw [List.append_nil]; rfl⟩,
      List.forall_mem_singleton.2 ⟨[], _, [], [], ['\t'], hnone, stringText_server, hnone, hnone,
        htab, rfl⟩⟩⟩
  refine ⟨['\n'], _, [' '], hbefore, ⟨_, .members (hmembers "[1e999, \"\\ud800\"]".toList
    "\x7b\"call_timeout_secs\":5\x7d".toList "\x7b\"port\" :12000\x7d".toList),
    ?_, ?_, ?_, ?_, ?_⟩, hspace, ?_⟩
  · simp [SaysIf, Omits]
  · exact .inl ⟨_, rfl, _, ObjectText.members hserver, by simp [SaysIf, Omits],
      ⟨_, rfl, by cbv⟩, by simp⟩
  · exact .inl ⟨_, rfl, _, ObjectText.members hcalls, ⟨_, rfl, by cbv⟩,
      by simp [SaysIf, Omits], by simp⟩
  · exact .inr ⟨rfl, by simp [Omits]⟩
  · intro m hm hunknown
    fin_cases hm
    · exact isValue_skipped
    · exact absurd hunknown (by simp)
    · exact absurd hunknown (by simp)
  · rfl

/-- A part of the settings, with the defaults of all others; the oldest version, and texts that need
escapes; and a version that is too new. -/
theorem settings_come_back_in_part :
    load "a.json" (.text mixedDocument) = .ok ⟨1, ⟨"0.0.0.0", 12000⟩, ⟨5, 60⟩, ⟨"info"⟩⟩ ∧
    load "a.json" (.text (encode ⟨0, ⟨"\"\\\x01", 0⟩, ⟨18446744073709551615, 0⟩, ⟨"\n"⟩⟩))
      = .ok ⟨0, ⟨"\"\\\x01", 0⟩, ⟨18446744073709551615, 0⟩, ⟨"\n"⟩⟩ ∧
    load "a.json" (.text (encode ⟨2, .default, .default, .default⟩))
      = .error (.unsupportedVersion 2) :=
  ⟨settings_come_back.2.1 _ _ _ _ (by decide) isDocument_mixed,
    settings_come_back.2.2.1 _ _ (by decide), settings_come_back.2.2.2 _ _ (by decide)⟩

end Settings

end KeywordRunner.Config
