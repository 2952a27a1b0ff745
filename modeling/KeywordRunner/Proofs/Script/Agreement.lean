import KeywordRunner.CommandLine.Program
import KeywordRunner.Proofs.Script.Admission

/-!
# Proofs.Script.Agreement — what loading depends on

Loading asks which names are known and never what a keyword does, so that interpreters which know
the same names load the same texts, even if their keywords act in different monads.

* **`Registry.Agree`**, **`Interpreter.Agree`** — the same names.
* **`Agree.load`** — the same answer to every text.
* **`agree_bundled`** — the registry of the program names the same keywords whatever they act on.
-/

namespace KeywordRunner.Script

variable {n m : Type → Type}

/-! ## Registries -/

namespace Registry

/-- The names of the keywords in a catalogued library. -/
def offers? (r : Registry n) (library : String) : Option (List String) :=
  (r.libraries.get? library).map fun library => Entries.keys library.keywords

/-- The same names can be called and imported. -/
structure Agree (r : Registry n) (r' : Registry m) : Prop where
  contains : ∀ name, r.contains name = r'.contains name
  offers : ∀ library, r.offers? library = r'.offers? library

theorem Agree.refl (r : Registry n) : r.Agree r := ⟨fun _ => rfl, fun _ => rfl⟩

theorem Agree.symm {r : Registry n} {r' : Registry m} (h : r.Agree r') : r'.Agree r :=
  ⟨fun name => (h.contains name).symm, fun library => (h.offers library).symm⟩

theorem Agree.hasLibrary {r : Registry n} {r' : Registry m} (h : r.Agree r') (name : String) :
    r.hasLibrary name = r'.hasLibrary name := by
  have hoffers := congrArg Option.isSome (h.offers name)
  rwa [offers?, offers?, Option.isSome_map, Option.isSome_map] at hoffers

theorem mem_offers_iff {r : Registry n} {key name : String} :
    (∃ library, r.libraries.get? key = some library ∧ name ∈ Entries.keys library.keywords)
      ↔ ∃ names, r.offers? key = some names ∧ name ∈ names := by
  unfold offers?
  constructor
  · rintro ⟨library, hlibrary, hname⟩
    exact ⟨_, by rw [hlibrary, Option.map_some], hname⟩
  · rintro ⟨names, hnames, hname⟩
    obtain ⟨library, hlibrary, rfl⟩ := Option.map_eq_some_iff.1 hnames
    exact ⟨library, hlibrary, hname⟩

end Registry

/-! ## Interpreters -/

namespace Interpreter

/-- The same names are known, and lines are numbered from the same number on. -/
structure Agree (it : Interpreter n) (it' : Interpreter m) : Prop where
  registry : it.registry.Agree it'.registry
  declares : ∀ name, it.vars.isDeclared name = it'.vars.isDeclared name
  lineCount : it.lineCount = it'.lineCount

section

variable {it : Interpreter n} {it' : Interpreter m}

theorem Agree.symm (h : it.Agree it') : it'.Agree it :=
  ⟨h.registry.symm, fun name => (h.declares name).symm, h.lineCount.symm⟩

theorem Agree.declares_eq (h : it.Agree it') (earlier : List Line) :
    it.Declares earlier = it'.Declares earlier := by
  funext name
  rw [Declares, Declares, h.declares]

theorem Agree.calls_eq (h : it.Agree it') (earlier : List Line) :
    it.Calls earlier = it'.Calls earlier := by
  funext name
  simp only [Calls, Registry.mem_offers_iff, h.registry.contains, h.registry.offers]

theorem Agree.admits (h : it.Agree it') {earlier : List Line} {number : LineNumber}
    {text : String} (hadmits : it.Admits earlier number text) :
    it'.Admits earlier number text := by
  cases hadmits with
  | blank hblank => exact .blank hblank
  | comment hsaid hcomment => exact .comment hsaid hcomment
  | importing hsaid hreads hkey hargs hlibrary =>
    rw [h.declares_eq] at hreads
    rw [h.registry.hasLibrary] at hlibrary
    exact .importing hsaid hreads hkey hargs hlibrary
  | calling hsaid hreads hkey hother hknown =>
    rw [h.declares_eq] at hreads
    rw [h.calls_eq, h.declares_eq] at hknown
    exact .calling hsaid hreads hkey hother hknown

theorem Agree.refuses (h : it.Agree it') {earlier : List Line} {number : LineNumber}
    {text : String} {cause : LoadCause} (hrefuses : it.Refuses earlier number text cause) :
    it'.Refuses earlier number text cause := by
  cases hrefuses with
  | unreadable hblank hread => exact .unreadable hblank hread
  | undefinedVariable hsaid hname =>
    rw [h.declares_eq] at hname
    exact .undefinedVariable hsaid hname
  | malformedImport hsaid hreads hkey hargs =>
    rw [h.declares_eq] at hreads
    exact .malformedImport hsaid hreads hkey hargs
  | unknownLibrary hsaid hreads hkey hargs hlibrary =>
    rw [h.declares_eq] at hreads
    rw [h.registry.hasLibrary] at hlibrary
    exact .unknownLibrary hsaid hreads hkey hargs hlibrary
  | unknownKeyword hsaid hreads hkey hother hcalls hdeclares =>
    rw [h.declares_eq] at hreads hdeclares
    rw [h.calls_eq] at hcalls
    exact .unknownKeyword hsaid hreads hkey hother hcalls hdeclares

/-- The rules speak about names only. -/
theorem Agree.admits_iff (h : it.Agree it') {earlier : List Line} {number : LineNumber}
    {text : String} : it.Admits earlier number text ↔ it'.Admits earlier number text :=
  ⟨h.admits, h.symm.admits⟩

theorem Agree.refuses_iff (h : it.Agree it') {earlier : List Line} {number : LineNumber}
    {text : String} {cause : LoadCause} :
    it.Refuses earlier number text cause ↔ it'.Refuses earlier number text cause :=
  ⟨h.refuses, h.symm.refuses⟩

theorem Agree.loadLines (h : it.Agree it') (texts : List String) :
    (it.loadLines texts).2 = (it'.loadLines texts).2 := by
  cases hresult : (it'.loadLines texts).2 with
  | ok done =>
    rw [loadLines_ok_iff] at hresult ⊢
    simpa only [h.admits_iff, h.lineCount] using hresult
  | error fault =>
    rw [loadLines_error_iff] at hresult ⊢
    simpa only [h.admits_iff, h.refuses_iff, h.lineCount] using hresult

/-- Interpreters that know the same names give the same answer to every text. -/
theorem Agree.load (h : it.Agree it') (text : String) : (it.load text).2 = (it'.load text).2 := by
  rw [load_answer, load_answer, h.loadLines]

end

theorem lines_load {it : Interpreter n} {text : String} (h : (it.load text).2 = .ok ()) :
    (it.load text).1.lines = it.lines ++ Line.ofTexts it.lineCount (Text.lines text) :=
  (loadLines_extends (load_eq_of_ok h)).1.lines

end Interpreter

/-! ## Cases -/

namespace Case

variable {registry : Registry n} {registry' : Registry m} {c : Case}

/-- Whether a case can be loaded, and why not, is a matter of its script. -/
theorem load_eq_script (registry : Registry n) (c : Case) :
    (c.load registry).2 = ((Interpreter.withRegistry registry).load c.script).2 :=
  have hagree : ((Interpreter.withRegistry registry).setCaseId c.id).Agree
      (Interpreter.withRegistry registry) := ⟨.refl registry, fun _ => rfl, rfl⟩
  hagree.load c.script

theorem load_agree (h : registry.Agree registry') (c : Case) :
    (c.load registry).2 = (c.load registry').2 :=
  have hagree : ((Interpreter.withRegistry registry).setCaseId c.id).Agree
      ((Interpreter.withRegistry registry').setCaseId c.id) := ⟨h, fun _ => rfl, rfl⟩
  hagree.load c.script

/-- The lines of a case are what its script says. -/
theorem lines_of_load (h : (c.load registry).2 = .ok ()) :
    (c.load registry).1.lines = Line.ofTexts 0 (Text.lines c.script) :=
  Interpreter.lines_load h

end Case

/-! ## The registry of the program -/

theorem Registry.contains_new_iff [Pure n] {name : String} :
    (new : Registry n).contains name = true ↔ name ∈ [Keyword.importName, Keyword.checkName] := by
  have hkeys : Entries.keys (Keyword.builtins : List (String × Keyword n))
      = [Keyword.importName, Keyword.checkName] := rfl
  show (Table.empty.insertAll Keyword.builtins).contains name = true ↔ _
  rw [Table.contains_insertAll_iff, hkeys]
  exact or_iff_left fun h => Bool.false_ne_true h

/-- Whatever its keywords act on, the registry of the program names the same ones. -/
theorem agree_bundled [Monad n] [Monad m] (port : DevicePort n) (port' : DevicePort m) :
    (CommandLine.registry port).Agree (CommandLine.registry port') := by
  refine ⟨fun name => ?_, fun library => ?_⟩
  · show (Registry.new : Registry n).contains name = (Registry.new : Registry m).contains name
    rw [Bool.eq_iff_iff, Registry.contains_new_iff, Registry.contains_new_iff]
  · show ((Table.insert ∅ Reflection.libraryName (Reflection.library port)).get? library).map _
      = ((Table.insert ∅ Reflection.libraryName (Reflection.library port')).get? library).map _
    rw [Table.get?_insert, Table.get?_insert]
    by_cases hlibrary : library = Reflection.libraryName
    · rw [if_pos hlibrary, if_pos hlibrary]
      rfl
    · rw [if_neg hlibrary, if_neg hlibrary]
      rfl

end KeywordRunner.Script
