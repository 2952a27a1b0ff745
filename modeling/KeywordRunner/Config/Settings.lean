import KeywordRunner.Json.Printer
import KeywordRunner.Json.Record
import KeywordRunner.Time.Duration

/-!
# Config.Settings — settings of the runner

The settings are a JSON document of nested sections. Every field has a default, so a document may
leave out whatever it likes; `Settings.toJson` writes all of it. Documents carry a version, and one
that is newer than this library is refused as a whole (see `Config.Storage`).
-/

namespace KeywordRunner.Config

/-- The version of the documents that this library writes. -/
def currentVersion : UInt32 := 1

structure ServerSettings where
  bindAddress : String
  port : UInt16
  deriving DecidableEq, Repr

structure CallSettings where
  callTimeoutSeconds : UInt64
  registrationWaitSeconds : UInt64
  deriving DecidableEq, Repr

structure LoggingSettings where
  filter : String
  deriving DecidableEq, Repr

structure Settings where
  version : UInt32
  server : ServerSettings
  calls : CallSettings
  logging : LoggingSettings
  deriving DecidableEq, Repr

namespace ServerSettings

def default : ServerSettings := ⟨"0.0.0.0", 11800⟩

instance : Inhabited ServerSettings := ⟨default⟩

/-- The address to listen on. -/
def socketAddress (s : ServerSettings) : String :=
  s.bindAddress ++ ":" ++ Digits.text s.port.toNat

end ServerSettings

namespace CallSettings

def default : CallSettings := ⟨120, 60⟩

instance : Inhabited CallSettings := ⟨default⟩

def callTimeout (c : CallSettings) : Duration := .ofSeconds c.callTimeoutSeconds.toNat

def registrationWait (c : CallSettings) : Duration := .ofSeconds c.registrationWaitSeconds.toNat

end CallSettings

namespace LoggingSettings

def default : LoggingSettings := ⟨"info"⟩

instance : Inhabited LoggingSettings := ⟨default⟩

end LoggingSettings

namespace Settings

def default : Settings := ⟨currentVersion, .default, .default, .default⟩

instance : Inhabited Settings := ⟨default⟩

/-! ### JSON form -/

def natural (n : Nat) : Json := Json.ofUInt64 (UInt64.ofNat n)

def toJson (s : Settings) : Json :=
  .obj [
    ("version", natural s.version.toNat),
    ("server", .obj [
      ("bind_address", .str s.server.bindAddress),
      ("port", natural s.server.port.toNat)]),
    ("rpc", .obj [
      ("call_timeout_secs", natural s.calls.callTimeoutSeconds.toNat),
      ("registration_wait_secs", natural s.calls.registrationWaitSeconds.toNat)]),
    ("logging", .obj [("filter", .str s.logging.filter)])]

def textField {σ : Type} (name : String) (set : String → σ → σ) : Json.Field Empty σ where
  name := name
  read := fun _ cs => do
    let (s, rest) ← Json.readString cs
    pure (set s, rest)

/-- A field that holds a natural number up to a limit. -/
def naturalField {σ : Type} (name : String) (limit : Nat) (set : Nat → σ → σ) :
    Json.Field Empty σ where
  name := name
  read := fun _ cs => do
    let (k, rest) ← Json.readNatural limit cs
    pure (set k, rest)

/-- A field that holds a section; fields that the section leaves out have their defaults. -/
def sectionField {σ τ : Type} (name : String) (fields : List (Json.Field Empty τ)) (initial : τ)
    (set : τ → σ → σ) : Json.Field Empty σ where
  name := name
  read := fun depth cs => do
    let (x, rest) ← Json.readRecord fields initial depth cs
    pure (set x, rest)

def serverFields : List (Json.Field Empty ServerSettings) := [
  textField "bind_address" fun v s => { s with bindAddress := v },
  naturalField "port" (UInt16.size - 1) fun v s => { s with port := UInt16.ofNat v }]

def callFields : List (Json.Field Empty CallSettings) := [
  naturalField "call_timeout_secs" (UInt64.size - 1) fun v s =>
    { s with callTimeoutSeconds := UInt64.ofNat v },
  naturalField "registration_wait_secs" (UInt64.size - 1) fun v s =>
    { s with registrationWaitSeconds := UInt64.ofNat v }]

def loggingFields : List (Json.Field Empty LoggingSettings) := [
  textField "filter" fun v s => { s with filter := v }]

def fields : List (Json.Field Empty Settings) := [
  naturalField "version" (UInt32.size - 1) fun v s => { s with version := UInt32.ofNat v },
  sectionField "server" serverFields .default fun v s => { s with server := v },
  sectionField "rpc" callFields .default fun v s => { s with calls := v },
  sectionField "logging" loggingFields .default fun v s => { s with logging := v }]

/-- Settings from the text of a document. -/
def parse (text : String) : Except (JsonFault Empty) Settings :=
  Json.parseRecord fields .default text

end Settings

end KeywordRunner.Config
