import KeywordRunner.Proofs.Script.Loading
import KeywordRunner.Proofs.Script.Visits

/-!
# Proofs.Script.Scope — every name in a loaded line resolves

Loading checks the names of a line against the variables and the registry of that moment. The line
stays in scope from then on, because nothing takes a name away from under it: a failed load takes
back lines and names together, and a reset drops every line.

* **`Line.InScope`** — what loading checks of a line, said of any registry and any variables.
* **`Interpreter.Scoped`** — the invariant: every loaded line is in scope.
* **`scoped_of_acts`** — it holds after any acts on an interpreter, and no run of such an
  interpreter meets an undeclared variable.
-/

namespace KeywordRunner.Script

variable {n : Type → Type}

/-! ## Registries -/

/-- The registries that can be made from the built-in keywords. -/
inductive Registry.Built [Pure n] : Registry n → Prop where
  | new : Built .new
  | register {r : Registry n} (name : String) (keyword : Keyword n) (h : Built r) :
      Built (r.register name keyword)
  | addLibrary {r : Registry n} (library : Library n) (h : Built r) : Built (r.addLibrary library)
  | importLibrary {r r' : Registry n} {name : String} {count : Nat} (h : Built r)
      (himport : r.importLibrary name = some (r', count)) : Built r'
  | reset {r : Registry n} (h : Built r) : Built r.reset

/-- The import keyword can be given another meaning, but it cannot be lost. -/
theorem Registry.Built.contains_importName [Pure n] {r : Registry n} (h : r.Built) :
    r.contains Keyword.importName = true := by
  induction h with
  | new => exact contains_importName_new
  | register name keyword _ ih => rw [contains_register, ih, Bool.or_true]
  | addLibrary library _ ih => rw [contains_addLibrary, ih]
  | importLibrary _ himport ih => exact contains_importLibrary himport ih
  | reset _ _ => exact contains_importName_reset _

/-! ## Lines in scope -/

/-- A line that says something, all of it about names that are known. -/
structure Line.InScope (registry : Registry n) (vs : Variables) (line : Line) : Prop where
  items_ne_nil : line.items ≠ []
  reads : ∀ word ∈ line.items, ∀ name attr,
    Token.classify word = .variable name attr → vs.isDeclared name = true
  output : ∀ name, line.output = some name → vs.isDeclared name = true
  keyword : ∀ name, line.keyword = some name →
    registry.contains name = true ∨ vs.isDeclared name = true

namespace Line.InScope

variable {registry registry' : Registry n} {vs vs' : Variables} {line : Line}

theorem mono (h : line.InScope registry vs)
    (hregistry : ∀ name, registry.contains name = true → registry'.contains name = true)
    (hvars : ∀ name, vs.isDeclared name = true → vs'.isDeclared name = true) :
    line.InScope registry' vs' where
  items_ne_nil := h.items_ne_nil
  reads word hword name attr hname := hvars name (h.reads word hword name attr hname)
  output name hname := hvars name (h.output name hname)
  keyword name hname := (h.keyword name hname).imp (hregistry name) (hvars name)

theorem resolveAll_ne (h : line.InScope registry vs) (name : String) :
    vs.resolveAll line.args ≠ .error (.undefinedVariable name) := by
  intro hfault
  -- some word would read a variable that is not declared
  obtain ⟨word, hword, hresolve⟩ := Variables.exists_resolve_error hfault
  obtain ⟨hundeclared, attr, hclass⟩ := Variables.isDeclared_eq_false_of_resolve hresolve
  have hdeclared := h.reads word (List.mem_of_mem_tail hword) name attr hclass
  rw [hundeclared] at hdeclared
  exact absurd hdeclared (by simp)

/-- If the keyword of a line in scope is not registered, it is the name of a variable. -/
theorem isDeclared_of_get?_eq_none (h : line.InScope registry vs) {keyword : String}
    (hkey : line.keyword = some keyword) (hget : registry.get? keyword = none) :
    registry.contains keyword = false ∧ vs.isDeclared keyword = true := by
  have hmissing : registry.contains keyword = false := by
    show (registry.get? keyword).isSome = false
    rw [hget, Option.isSome_none]
  refine ⟨hmissing, (h.keyword keyword hkey).resolve_left ?_⟩
  rw [hmissing]
  exact Bool.false_ne_true

end Line.InScope

namespace Interpreter

/-! ## The invariant -/

/-- The import keyword can be called and every loaded line is in scope. -/
structure Scoped (it : Interpreter n) : Prop where
  importable : it.registry.contains Keyword.importName = true
  inScope : ∀ line ∈ it.lines, line.isComment = false → line.InScope it.registry it.vars

section

variable {it it' : Interpreter n} {line : Line}

theorem Scoped.counted (h : it.Scoped) (count : LineNumber) :
    Scoped { it with lineCount := count } := ⟨h.importable, h.inScope⟩

/-- What is loaded only has to bring its own names. -/
theorem Scoped.extend {new : List Line} (h : it.Scoped) (hext : it.Extends it' new)
    (hnew : ∀ line ∈ new, line.isComment = false → line.InScope it'.registry it'.vars) :
    it'.Scoped where
  importable := hext.contains h.importable
  inScope line hline hcomment := by
    rw [hext.lines] at hline
    rcases List.mem_append.1 hline with hold | hline
    · exact (h.inScope line hold hcomment).mono (fun _ => hext.contains) (fun _ => hext.isDeclared)
    · exact hnew line hline hcomment

/-- The names that a line reads are declared if none is found that is not. -/
theorem isDeclared_of_undeclared? (h : it.undeclared? line = none) {word name : String}
    {attr : Option String} (hword : word ∈ line.items)
    (hclass : Token.classify word = .variable name attr) : it.vars.isDeclared name = true := by
  have hread : name ∈ line.references := by
    refine List.mem_filterMap.2 ⟨word, hword, ?_⟩
    unfold Token.variableName?
    rw [hclass]
  have hfound := List.find?_eq_none.1 h name hread
  simpa using hfound

/-- A keyword that resolves can be called afterwards, or is a declared variable. -/
theorem keyword_of_resolveKeyword {registry : Registry n}
    (hresolve : it.resolveKeyword line = .ok registry)
    (himport : it.registry.contains Keyword.importName = true) {name : String}
    (hname : line.keyword = some name) :
    registry.contains name = true ∨ it.vars.isDeclared name = true := by
  rcases resolveKeyword_cases hresolve with ⟨hkey, library, count, _, hlib⟩ | ⟨_, rfl, hfound⟩
  -- the line is an import, and imports take no name away
  · cases hkey.symm.trans hname
    exact Or.inl (Registry.contains_importLibrary hlib himport)
  · rw [hname, Option.getD_some] at hfound
    exact hfound

/-- What acceptance checks puts the line in scope. -/
theorem Scoped.accept {raw : String} {number : LineNumber} (h : it.Scoped)
    (hblank : Text.isBlankText raw = false) (hread : Line.read raw number = .ok line)
    (hacc : it.accept line = .ok it') : it'.Scoped := by
  have hext : it.Extends it' [line] := (accept_extends hacc).1
  refine h.extend hext fun line' hmem hcomment => ?_
  cases List.mem_singleton.1 hmem
  -- every check of acceptance is one field of the scope
  rcases accept_cases hacc with ⟨hc, _⟩ | ⟨_, hundeclared, registry, hresolve, heq⟩
  · rw [hcomment] at hc
    exact absurd hc (by simp)
  · have hregistry : it'.registry = registry := by rw [heq]
    refine ⟨Line.items_ne_nil_of_read hblank hread hcomment, fun word hword name attr hclass => ?_,
      fun name hname => hext.isDeclared_output hmem hname, fun name hname => ?_⟩
    · exact hext.isDeclared (isDeclared_of_undeclared? hundeclared hword hclass)
    · rw [hregistry]
      exact (keyword_of_resolveKeyword hresolve h.importable hname).imp_right hext.isDeclared

/-- Loading one line, with any number and any outcome. -/
theorem Scoped.loadLine (h : it.Scoped) (text : String) (number : LineNumber) :
    (it.loadLine text number).1.Scoped := by
  have hcounted := h.counted (max it.lineCount number)
  rcases loadLine_cases it text number with
    ⟨_, heq⟩ | ⟨fault, _, _, heq⟩ | ⟨line, it₁, hblank, hread, hacc, heq⟩
  · rw [heq]
    exact hcounted
  · rw [heq]
    exact hcounted
  · rw [heq]
    exact hcounted.accept hblank hread hacc

theorem Scoped.loadLines (h : it.Scoped) (texts : List String) :
    (it.loadLines texts).1.Scoped := by
  -- on the lines; the invariant is that of whatever has been loaded so far
  induction texts generalizing it with
  | nil => exact h
  | cons text texts ih =>
    have hfirst := h.loadLine text (it.lineCount + 1)
    rw [loadLines_cons]
    cases hline : it.loadLine text (it.lineCount + 1) with
    | mk it₁ result =>
      rw [hline] at hfirst
      cases result with
      | error fault => exact hfirst
      | ok loaded? => exact ih hfirst

/-- Loading a text: either all of its lines are in scope, or it leaves no trace. -/
theorem Scoped.load (h : it.Scoped) (text : String) : (it.load text).1.Scoped := by
  cases hresult : (it.load text).2 with
  | error fault =>
    -- lines, variables and registry are back together
    rw [(load_error hresult).1]
    exact h
  | ok done =>
    have hlines := h.loadLines (Text.lines text)
    rw [load_eq_of_ok hresult] at hlines
    exact hlines

theorem Scoped.reset [Pure n] (it : Interpreter n) : it.reset.Scoped :=
  ⟨Registry.contains_importName_reset _, fun _ hline => absurd hline List.not_mem_nil⟩

theorem Scoped.grow (h : it.Scoped) {registry : Registry n}
    (hgrow : ∀ name, it.registry.contains name = true → registry.contains name = true) :
    Scoped { it with registry } where
  importable := hgrow _ h.importable
  inScope line hline hcomment := (h.inScope line hline hcomment).mono hgrow fun _ => id

end

/-! ## Runs -/

variable {σ : Type} {it : Interpreter (StateM σ)}

theorem isDeclared_of_runs {registry : Registry (StateM σ)} {vs vs' : Variables} {line : Line}
    {w w' : σ} (hruns : line.Runs registry vs w (.ok vs') w') {name : String}
    (hname : vs.isDeclared name = true) : vs'.isDeclared name = true := by
  cases hruns with
  | skipped h => exact hname
  | value hitems hkey hwords hget hcall =>
    unfold bindOutput
    split
    · exact hname
    · rw [Variables.isDeclared_set, hname, Bool.or_true]

/-- The variables that a run finds at its lines and leaves behind are all that were declared. -/
theorem isDeclared_of_run (it : Interpreter (StateM σ)) (deviceId : String)
    (notify : Event → σ → σ) (w : σ) {name : String} (hname : it.vars.isDeclared name = true) :
    (∀ v ∈ it.visits deviceId notify w, v.vars.isDeclared name = true) ∧
      (it.record deviceId notify w).1.1.1.vars.isDeclared name = true := by
  rw [record_eq_walk]
  exact walk_keeps (P := fun vs => vs.isDeclared name = true) notify it.registry _
    (fun line _ vs w vs' w' hruns => isDeclared_of_runs hruns) hname

theorem Scoped.record (h : it.Scoped) (deviceId : String) (notify : Event → σ → σ) (w : σ) :
    (it.record deviceId notify w).1.1.1.Scoped := by
  have hdeclared := fun name (hname : it.vars.isDeclared name = true) =>
    (isDeclared_of_run it deviceId notify w hname).2
  rw [record_eq_walk] at hdeclared ⊢
  exact ⟨h.importable, fun line hline hcomment =>
    (h.inScope line hline hcomment).mono (fun _ => id) hdeclared⟩

theorem Scoped.inScope_of_visit (h : it.Scoped) {deviceId : String} {notify : Event → σ → σ}
    {w : σ} {v : Visit σ} (hv : v ∈ it.visits deviceId notify w)
    (hcomment : v.line.isComment = false) : v.line.InScope it.registry v.vars := by
  -- the lines of the visits are the loaded ones
  have hline : v.line ∈ it.lines := by
    rw [← walk_lines notify it.registry (fun kind => Event.plain kind deviceId it.caseId) it.lines
      it.vars (notify (Event.plain .caseStart deviceId it.caseId) w)]
    exact List.mem_map.2 ⟨v, hv, rfl⟩
  exact (h.inScope v.line hline hcomment).mono (fun _ => id) fun name hname =>
    (isDeclared_of_run it deviceId notify w hname).1 v hv

/-! ## Histories -/

/-- What can be done to an interpreter from outside. -/
inductive Act (σ : Type) where
  | load (text : String)
  | loadLine (text : String) (number : LineNumber)
  | execute (deviceId : String) (notify : Event → σ → σ) (w : σ)
  | register (name : String) (keyword : Keyword (StateM σ))
  | addLibrary (library : Library (StateM σ))
  /-- An import that no line asks for. -/
  | importLibrary (name : String)
  | setCaseId (caseId : Nat)
  | reset

/-- The interpreter after an act, whatever the act answers. -/
def Act.apply (it : Interpreter (StateM σ)) : Act σ → Interpreter (StateM σ)
  | .load text => (it.load text).1
  | .loadLine text number => (it.loadLine text number).1
  | .execute deviceId notify w => (it.record deviceId notify w).1.1.1
  | .register name keyword => it.register name keyword
  | .addLibrary library => it.addLibrary library
  | .importLibrary name =>
    match it.registry.importLibrary name with
    | some (registry, _) => { it with registry }
    | none => it
  | .setCaseId caseId => it.setCaseId caseId
  | .reset => it.reset

/-- The step: no act takes a loaded line out of scope. -/
theorem Scoped.apply (h : it.Scoped) (act : Act σ) : (act.apply it).Scoped := by
  cases act with
  | load text => exact h.load text
  | loadLine text number => exact h.loadLine text number
  | execute deviceId notify w => exact h.record deviceId notify w
  | register name keyword =>
    refine h.grow fun k hk => ?_
    rw [Registry.contains_register, hk, Bool.or_true]
  | addLibrary library => exact h.grow fun k hk => hk
  | importLibrary name =>
    show Scoped (match it.registry.importLibrary name with
      | some (registry, _) => { it with registry }
      | none => it)
    split
    · next registry count himport =>
      exact h.grow fun k hk => Registry.contains_importLibrary himport hk
    · exact h
  | setCaseId caseId => exact ⟨h.importable, h.inScope⟩
  | reset => exact Scoped.reset it

/-- The run: neither do any acts in any order. -/
theorem Scoped.foldl (h : it.Scoped) (acts : List (Act σ)) : (acts.foldl Act.apply it).Scoped := by
  induction acts generalizing it with
  | nil => exact h
  | cons act acts ih => exact ih (h.apply act)

/-- **Scopes are sound.** Whatever has been done to an interpreter, each of its lines that is no
comment has a keyword and speaks of known names only. So in any run the arguments of a line never
lack a variable, and a keyword that is not found is one that names a variable and nothing else. -/
theorem scoped_of_acts (registry : Registry (StateM σ)) (hbuilt : registry.Built)
    (acts : List (Act σ)) :
    let it := acts.foldl Act.apply (withRegistry registry)
    (∀ line ∈ it.lines, line.isComment = false → line.InScope it.registry it.vars) ∧
    ∀ deviceId notify w, ∀ v ∈ it.visits deviceId notify w,
      (∀ name, v.vars.resolveAll v.line.args ≠ .error (.undefinedVariable name)) ∧
      (∀ keyword, v.line.keyword = some keyword → it.registry.get? keyword = none →
        it.registry.contains keyword = false ∧ v.vars.isDeclared keyword = true) := by
  intro it
  -- without lines, only the import keyword is to be found
  have hempty : (withRegistry registry).Scoped :=
    ⟨hbuilt.contains_importName, fun _ hline => absurd hline List.not_mem_nil⟩
  have hscoped : it.Scoped := hempty.foldl acts
  refine ⟨hscoped.inScope, fun deviceId notify w v hv => ?_⟩
  cases hcomment : v.line.isComment with
  | false =>
    have hline := hscoped.inScope_of_visit hv hcomment
    exact ⟨hline.resolveAll_ne, fun keyword hkey hget => hline.isDeclared_of_get?_eq_none hkey hget⟩
  | true =>
    -- a comment has neither arguments nor a keyword
    have hargs : v.line.args = [] := Line.args_of_isComment hcomment
    have hnone : v.line.keyword = none := Line.keyword_of_isComment hcomment
    rw [hargs, hnone]
    exact ⟨fun name => by simp [Variables.resolveAll], fun keyword hkey => absurd hkey (by simp)⟩

/-- A script is loaded, and another one refused because nothing binds `w`. -/
theorem scoped_after_refused_load :
    let acts : List (Act Unit) :=
      [.register "get" fun _ => pure (.value .null), .load "get as v\nget $v $v.x", .load "get $w"]
    let it := acts.foldl Act.apply (withRegistry .new)
    Registry.Built (.new : Registry (StateM Unit)) ∧
    it.lines.map (·.references) = [[], ["v", "v"]] ∧
    (∀ line ∈ it.lines, line.isComment = false → line.InScope it.registry it.vars) ∧
    ∀ v ∈ it.visits "d" (fun _ w => w) (), ∀ name,
      v.vars.resolveAll v.line.args ≠ .error (.undefinedVariable name) := by
  intro acts it
  obtain ⟨hlines, hvisits⟩ := scoped_of_acts .new .new acts
  exact ⟨.new, rfl, hlines, fun v hv => (hvisits "d" (fun _ w => w) () v hv).1⟩

end Interpreter

end KeywordRunner.Script
