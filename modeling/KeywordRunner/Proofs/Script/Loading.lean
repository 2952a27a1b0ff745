import KeywordRunner.Script.Interpreter

/-!
# Proofs.Script.Loading — what loading a script changes

* **`LineNumber.after`** — the number of each line of a text: consecutive after the counter, as far
  as numbers go.
* **`Interpreter.Extends`** — all that loaded lines make of an interpreter: lines are appended,
  output names are declared, imports are carried out in order.
* **`loadLines_extends`**, **`exists_first_fault`** — the two ways a list of lines can end.
* **`load_all_or_nothing`** — a text is loaded as a whole, or leaves no trace.
-/

namespace KeywordRunner.Script

/-! ## Numbers of consecutive lines -/

namespace LineNumber

/-- The number of the `k`-th line after a counter. Past the greatest number every line has number
zero, since the counter stays at the greatest. -/
def after (count : LineNumber) (k : Nat) : LineNumber :=
  if count.toNat + k < UInt64.size then UInt64.ofNat (count.toNat + k) else 0

/-- The counter once `k` more lines are counted. -/
def advance (count : LineNumber) (k : Nat) : LineNumber :=
  UInt64.ofNat (min (count.toNat + k) (UInt64.size - 1))

theorem toNat_advance (count : LineNumber) (k : Nat) :
    (advance count k).toNat = min (count.toNat + k) (UInt64.size - 1) := by
  have hsize : min (count.toNat + k) (UInt64.size - 1) < UInt64.size := by
    have : 0 < UInt64.size := by decide
    omega
  rw [advance, UInt64.toNat_ofNat', Nat.mod_eq_of_lt hsize]

/-- Up to the greatest number, lines are numbered consecutively. -/
theorem toNat_after {count : LineNumber} {k : Nat} (h : count.toNat + k < UInt64.size) :
    (after count k).toNat = count.toNat + k := by
  rw [after, if_pos h, UInt64.toNat_ofNat', Nat.mod_eq_of_lt h]

@[simp] theorem advance_zero (count : LineNumber) : advance count 0 = count := by
  apply UInt64.toNat_inj.1
  have hlt : count.toNat < UInt64.size := count.toNat_lt
  rw [toNat_advance]
  omega

theorem advance_advance (count : LineNumber) (j k : Nat) :
    advance (advance count j) k = advance count (j + k) := by
  apply UInt64.toNat_inj.1
  rw [toNat_advance, toNat_advance, toNat_advance]
  omega

theorem after_advance (count : LineNumber) (j : Nat) {k : Nat} (hk : 0 < k) :
    after (advance count j) k = after count (j + k) := by
  unfold after
  rw [toNat_advance]
  -- past the greatest number the counter stays, and `k` more are still past it
  by_cases h : count.toNat + (j + k) < UInt64.size
  · have hmin : min (count.toNat + j) (UInt64.size - 1) + k = count.toNat + (j + k) := by omega
    rw [hmin]
  · rw [if_neg h, if_neg (by omega)]

theorem add_one_eq_after (count : LineNumber) : count + 1 = after count 1 := by
  have hlt : count.toNat < UInt64.size := count.toNat_lt
  apply UInt64.toNat_inj.1
  unfold after
  by_cases h : count.toNat + 1 < UInt64.size
  · rw [if_pos h, UInt64.toNat_ofNat', UInt64.toNat_add, UInt64.toNat_one]
  · have hmax : count.toNat + 1 = UInt64.size := by omega
    -- the greatest number is followed by zero
    rw [if_neg h, UInt64.toNat_add, UInt64.toNat_one, hmax]
    rfl

theorem max_add_one (count : LineNumber) : max count (count + 1) = advance count 1 := by
  have hlt : count.toNat < UInt64.size := count.toNat_lt
  have hsucc : (count + 1).toNat = (count.toNat + 1) % UInt64.size := by
    rw [UInt64.toNat_add, UInt64.toNat_one]
  apply UInt64.toNat_inj.1
  rw [toNat_advance]
  by_cases h : count.toNat + 1 < UInt64.size
  · rw [Nat.mod_eq_of_lt h] at hsucc
    have hle : count ≤ count + 1 := UInt64.le_iff_toNat_le.2 (by omega)
    have hmax : max count (count + 1) = count + 1 := if_pos hle
    rw [hmax, hsucc]
    omega
  · have hwrap : count.toNat + 1 = UInt64.size := by omega
    rw [hwrap, Nat.mod_self] at hsucc
    -- the successor is zero, so the counter is the greater of the two
    have hle : ¬count ≤ count + 1 := fun hle => by
      have := UInt64.le_iff_toNat_le.1 hle
      have : 1 < UInt64.size := by decide
      omega
    have hmax : max count (count + 1) = count := if_neg hle
    rw [hmax]
    omega

end LineNumber

/-! ## What one line says -/

namespace Line

/-- The libraries that a line imports. -/
def imports (line : Line) : List String :=
  if line.keyword = some Keyword.importName then line.args else []

/-- What a text says as the `k`-th line after a counter; a blank one says nothing. -/
def at? (count : LineNumber) (k : Nat) (text : String) : Option Line :=
  if Text.isBlankText (Text.dropReturns text) then none
  else (read (Text.dropReturns text) (LineNumber.after count k)).toOption

/-- What the lines of a text say, numbered from a counter on. -/
def ofTexts (count : LineNumber) (texts : List String) : List Line :=
  (texts.mapIdx fun k text => at? count (k + 1) text).filterMap id

theorem at?_advance (count : LineNumber) (k : Nat) (text : String) :
    at? (LineNumber.advance count 1) (k + 1) text = at? count (k + 2) text := by
  unfold at?
  rw [LineNumber.after_advance count 1 (Nat.succ_pos k), Nat.add_comm 1 (k + 1)]

/-- The first line takes the next number, the others are numbered from there on. -/
theorem ofTexts_cons (count : LineNumber) (text : String) (texts : List String) :
    ofTexts count (text :: texts)
      = (at? count 1 text).toList ++ ofTexts (LineNumber.advance count 1) texts := by
  have hshift : (fun k text => at? (LineNumber.advance count 1) (k + 1) text)
      = fun k text => at? count (k + 1 + 1) text := by
    funext k text
    exact at?_advance count k text
  unfold ofTexts
  rw [List.mapIdx_cons, hshift, List.filterMap_cons, Nat.zero_add]
  cases at? count 1 text with
  | none => rfl
  | some line => rfl

end Line

/-- The registry after imports one after the other, provided each library is catalogued. -/
def Registry.importAll {n : Type → Type} (r : Registry n) (names : List String) :
    Option (Registry n) :=
  names.foldlM (fun r name => (r.importLibrary name).map (·.1)) r

/-- What each import keeps, all of them keep. -/
theorem Registry.importAll_keeps {n : Type → Type} {P : Registry n → Prop} {r r' : Registry n}
    {names : List String} (h : r.importAll names = some r')
    (hstep : ∀ r r' name count, r.importLibrary name = some (r', count) → P r → P r')
    (hr : P r) : P r' := by
  unfold Registry.importAll at h
  induction names generalizing r with
  | nil =>
    cases h
    exact hr
  | cons name names ih =>
    rw [List.foldlM_cons] at h
    obtain ⟨next, hnext, hrest⟩ := Option.bind_eq_some_iff.1 h
    obtain ⟨⟨r₁, count⟩, himport, rfl⟩ := Option.map_eq_some_iff.1 hnext
    exact ih hrest (hstep r r₁ name count himport hr)

/-- Imports take no name away. -/
theorem Registry.contains_importAll {n : Type → Type} {r r' : Registry n} {names : List String}
    {k : String} (h : r.importAll names = some r') (hk : r.contains k = true) :
    r'.contains k = true :=
  Registry.importAll_keeps h (fun _ _ _ _ himport => Registry.contains_importLibrary himport) hk

namespace Interpreter

variable {n : Type → Type} {it it' it'' : Interpreter n} {line : Line}

/-! ## What one line changes

`accept_cases` and `loadLine_cases` say everything that accepting and loading a line can do; no
later proof opens these functions. -/

/-- A name is resolved by an import, or by being callable or declared. -/
theorem resolveKeyword_cases {registry : Registry n} (h : it.resolveKeyword line = .ok registry) :
    (line.keyword = some Keyword.importName ∧ ∃ library count,
      line.args = [library] ∧ it.registry.importLibrary library = some (registry, count)) ∨
    (line.keyword ≠ some Keyword.importName ∧ registry = it.registry ∧
      (it.registry.contains (line.keyword.getD "") = true ∨
        it.vars.isDeclared (line.keyword.getD "") = true)) := by
  unfold resolveKeyword at h
  dsimp only at h
  split at h
  · next hkey =>
    refine Or.inl ⟨?_, ?_⟩
    · cases hk : line.keyword with
      | none =>
        -- the default is not the name of the import keyword
        rw [hk, Option.getD_none] at hkey
        exact absurd hkey (by decide)
      | some k =>
        rw [hk, Option.getD_some] at hkey
        rw [hkey]
    · split at h
      · next library hargs =>
        split at h
        · next r count himp =>
          cases h
          exact ⟨library, count, hargs, himp⟩
        · exact absurd h (by simp)
      · exact absurd h (by simp)
  · next hkey =>
    refine Or.inr ⟨fun hk => hkey (by rw [hk, Option.getD_some]), ?_⟩
    split at h
    · next hfound =>
      cases h
      exact ⟨rfl, by simpa using hfound⟩
    · exact absurd h (by simp)

theorem accept_cases (h : it.accept line = .ok it') :
    (line.isComment = true ∧ it' = it.addLine line) ∨
    (line.isComment = false ∧ it.undeclared? line = none ∧
      ∃ registry, it.resolveKeyword line = .ok registry ∧
        it' = { it.addLine line with registry, vars := declareOutput it.vars line.output }) := by
  unfold accept at h
  split at h
  · next hc =>
    cases h
    exact Or.inl ⟨hc, rfl⟩
  · next hc =>
    refine Or.inr ⟨by simpa using hc, ?_⟩
    split at h
    · exact absurd h (by simp)
    · next hu =>
      split at h
      · exact absurd h (by simp)
      · next registry hr =>
        cases h
        exact ⟨hu, registry, hr, rfl⟩

/-- A blank line only counts, a line that cannot be loaded only counts and is reported under its
number, and any other line is accepted. -/
theorem loadLine_cases (it : Interpreter n) (text : String) (number : LineNumber) :
    (Text.isBlankText (Text.dropReturns text) = true ∧
      it.loadLine text number = ({ it with lineCount := max it.lineCount number }, .ok none)) ∨
    (∃ fault : LoadFault, Text.isBlankText (Text.dropReturns text) = false ∧ fault.line = number ∧
      it.loadLine text number
        = ({ it with lineCount := max it.lineCount number }, .error fault)) ∨
    (∃ line it', Text.isBlankText (Text.dropReturns text) = false ∧
      Line.read (Text.dropReturns text) number = .ok line ∧
      accept { it with lineCount := max it.lineCount number } line = .ok it' ∧
      it.loadLine text number = (it', .ok (some line))) := by
  unfold loadLine
  dsimp only
  by_cases hb : Text.isBlankText (Text.dropReturns text) = true
  · rw [if_pos hb]
    exact Or.inl ⟨hb, rfl⟩
  · rw [if_neg hb]
    have hb' : Text.isBlankText (Text.dropReturns text) = false := by simpa using hb
    cases hread : Line.read (Text.dropReturns text) number with
    | error fault => exact Or.inr (Or.inl ⟨fault, hb', Line.line_of_read_error hread, rfl⟩)
    | ok line =>
      cases hacc : accept { it with lineCount := max it.lineCount number } line with
      | error cause =>
        refine Or.inr (Or.inl ⟨⟨number, cause⟩, hb', rfl, ?_⟩)
        dsimp only
        rw [hacc]
      | ok it' =>
        refine Or.inr (Or.inr ⟨line, it', hb', rfl, hacc, ?_⟩)
        dsimp only
        rw [hacc]

/-! ## What loaded lines make of an interpreter -/

/-- Some new lines, and all that loading them changes apart from the counter. -/
structure Extends (it it' : Interpreter n) (new : List Line) : Prop where
  lines : it'.lines = it.lines ++ new
  /-- Declared names keep their value, and output names are declared without one. -/
  slots : ∀ name, it'.vars.slots.get? name
    = (it.vars.slots.get? name).or (if some name ∈ new.map Line.output then some none else none)
  registry : it.registry.importAll (new.flatMap Line.imports) = some it'.registry
  caseId : it'.caseId = it.caseId

namespace Extends

theorem refl (it : Interpreter n) : Extends it it [] where
  lines := (List.append_nil it.lines).symm
  slots name := by rw [List.map_nil, if_neg List.not_mem_nil, Option.or_none]
  registry := rfl
  caseId := rfl

theorem trans {new new' : List Line} (h : Extends it it' new) (h' : Extends it' it'' new') :
    Extends it it'' (new ++ new') where
  lines := by rw [h'.lines, h.lines, List.append_assoc]
  slots name := by
    rw [h'.slots name, h.slots name, Option.or_assoc, List.map_append]
    congr 1
    -- the name is declared by the first lines, or by the second ones, or by none
    by_cases hnew : some name ∈ new.map Line.output
    · rw [if_pos hnew, if_pos (List.mem_append_left _ hnew), Option.some_or]
    · rw [if_neg hnew, Option.none_or]
      by_cases hnew' : some name ∈ new'.map Line.output
      · rw [if_pos hnew', if_pos (List.mem_append_right _ hnew')]
      · rw [if_neg hnew', if_neg fun hmem => (List.mem_append.1 hmem).elim hnew hnew']
  registry := by
    have hfirst := h.registry
    have hsecond := h'.registry
    unfold Registry.importAll at hfirst hsecond ⊢
    rw [List.flatMap_append, List.foldlM_append, hfirst]
    exact hsecond
  caseId := h'.caseId.trans h.caseId

theorem of_counted {count : LineNumber} {new : List Line}
    (h : Extends { it with lineCount := count } it' new) : Extends it it' new :=
  ⟨h.lines, h.slots, h.registry, h.caseId⟩

theorem counted (it : Interpreter n) (count : LineNumber) :
    Extends it { it with lineCount := count } [] :=
  let h := refl it
  ⟨h.lines, h.slots, h.registry, h.caseId⟩

theorem isDeclared {new : List Line} (h : Extends it it' new) {name : String}
    (hname : it.vars.isDeclared name = true) : it'.vars.isDeclared name = true := by
  obtain ⟨slot, hslot⟩ := Variables.isDeclared_iff.1 hname
  exact Variables.isDeclared_iff.2 ⟨slot, by rw [h.slots, hslot, Option.some_or]⟩

/-- The output names of the new lines are declared. -/
theorem isDeclared_output {new : List Line} (h : Extends it it' new) {line : Line} {name : String}
    (hline : line ∈ new) (hname : line.output = some name) : it'.vars.isDeclared name = true := by
  have hmem : some name ∈ new.map Line.output := List.mem_map.2 ⟨line, hline, hname⟩
  refine Option.isSome_iff_exists.2 ?_
  rw [h.slots, if_pos hmem]
  cases it.vars.slots.get? name with
  | none => exact ⟨none, rfl⟩
  | some slot => exact ⟨slot, rfl⟩

theorem contains {new : List Line} (h : Extends it it' new) {name : String}
    (hname : it.registry.contains name = true) : it'.registry.contains name = true :=
  Registry.contains_importAll h.registry hname

end Extends

/-- An accepted line extends the interpreter by itself and leaves the counter alone. -/
theorem accept_extends (h : it.accept line = .ok it') :
    Extends it it' [line] ∧ it'.lineCount = it.lineCount := by
  rcases accept_cases h with ⟨hcomment, rfl⟩ | ⟨_, _, registry, hresolve, rfl⟩
  -- a comment binds nothing and imports nothing
  · refine ⟨⟨lines_addLine it line, fun name => ?_, ?_, rfl⟩, rfl⟩
    · rw [List.map_singleton, Line.output_of_isComment hcomment, if_neg (by simp), Option.or_none]
      rfl
    · have himports : line.imports = [] := by
        rw [Line.imports, Line.keyword_of_isComment hcomment, if_neg (by simp)]
      rw [List.flatMap_singleton, himports]
      rfl
  -- a call binds its output, and imports where its keyword says so
  · refine ⟨⟨lines_addLine it line, fun name => ?_, ?_, rfl⟩, rfl⟩
    · show (declareOutput it.vars line.output).slots.get? name = _
      rw [List.map_singleton]
      cases hout : line.output with
      | none =>
        rw [if_neg (by simp), Option.or_none]
        rfl
      | some var =>
        show (it.vars.declare var).slots.get? name = _
        rw [Variables.get?_slots_declare]
        by_cases hname : name = var
        · rw [if_pos hname, if_pos (by simp [hname])]
        · rw [if_neg hname, if_neg (by simp [hname])]
    · show it.registry.importAll ([line].flatMap Line.imports) = some registry
      rw [List.flatMap_singleton]
      rcases resolveKeyword_cases hresolve with
        ⟨hkey, library, count, hargs, himport⟩ | ⟨hkey, hreg, _⟩
      · rw [Line.imports, if_pos hkey, hargs, Registry.importAll, List.foldlM_cons, himport]
        rfl
      · rw [Line.imports, if_neg hkey, hreg]
        rfl

/-- A line that is loaded extends the interpreter by what it says. -/
theorem loadLine_extends {text : String} {number : LineNumber} {loaded? : Option Line}
    (h : it.loadLine text number = (it', .ok loaded?)) :
    Extends it it' loaded?.toList ∧ it'.lineCount = max it.lineCount number := by
  rcases loadLine_cases it text number with
    ⟨_, heq⟩ | ⟨fault, _, _, heq⟩ | ⟨line, it₁, _, _, hacc, heq⟩
  · rw [heq] at h
    cases h
    exact ⟨Extends.counted it _, rfl⟩
  · rw [heq] at h
    exact absurd h (by simp)
  · rw [heq] at h
    cases h
    obtain ⟨hext, hcount⟩ := accept_extends hacc
    exact ⟨hext.of_counted, hcount⟩

/-- A line that cannot be loaded only counts. -/
theorem loadLine_error {text : String} {number : LineNumber} {fault : LoadFault}
    (h : it.loadLine text number = (it', .error fault)) :
    it' = { it with lineCount := max it.lineCount number } ∧ fault.line = number := by
  rcases loadLine_cases it text number with ⟨_, heq⟩ | ⟨f, _, hf, heq⟩ | ⟨line, it₁, _, _, _, heq⟩
  · rw [heq] at h
    exact absurd h (by simp)
  · rw [heq] at h
    cases h
    exact ⟨rfl, hf⟩
  · rw [heq] at h
    exact absurd h (by simp)

/-- What a line that is loaded next says. -/
theorem loadLine_next {text : String} {loaded? : Option Line}
    (h : it.loadLine text (it.lineCount + 1) = (it', .ok loaded?)) :
    loaded? = Line.at? it.lineCount 1 text := by
  unfold Line.at?
  rw [← LineNumber.add_one_eq_after]
  rcases loadLine_cases it text (it.lineCount + 1) with
    ⟨hb, heq⟩ | ⟨fault, _, _, heq⟩ | ⟨line, it₁, hb, hread, _, heq⟩
  · rw [heq] at h
    cases h
    rw [if_pos hb]
  · rw [heq] at h
    exact absurd h (by simp)
  · rw [heq] at h
    cases h
    rw [if_neg (by simp [hb]), hread]
    rfl

/-! ## What the lines of a text change -/

/-- Lines that are all loaded extend the interpreter by what they say, and each one counts. -/
theorem loadLines_extends {texts : List String} (h : it.loadLines texts = (it', .ok ())) :
    Extends it it' (Line.ofTexts it.lineCount texts) ∧
      it'.lineCount = LineNumber.advance it.lineCount texts.length := by
  induction texts generalizing it with
  | nil =>
    cases h
    exact ⟨Extends.refl _, (LineNumber.advance_zero _).symm⟩
  | cons text texts ih =>
    rw [loadLines_cons] at h
    cases hline : it.loadLine text (it.lineCount + 1) with
    | mk it₁ result =>
      rw [hline] at h
      cases result with
      | error fault => exact absurd h (by simp)
      | ok loaded? =>
        obtain ⟨hext, hcount⟩ := loadLine_extends hline
        obtain ⟨hext', hcount'⟩ := ih h
        rw [LineNumber.max_add_one] at hcount
        rw [hcount] at hext' hcount'
        rw [Line.ofTexts_cons, ← loadLine_next hline]
        refine ⟨hext.trans hext', ?_⟩
        have hlength : 1 + texts.length = (text :: texts).length := Nat.add_comm 1 texts.length
        rw [hcount', LineNumber.advance_advance, hlength]

/-- Lines that are not all loaded end at the first that cannot be, which is reported under its
number. What was loaded up to there has only added lines. -/
theorem exists_first_fault {texts : List String} {fault : LoadFault}
    (h : it.loadLines texts = (it', .error fault)) :
    (∃ before bad rest, texts = before ++ bad :: rest ∧
      (it.loadLines before).2 = .ok () ∧
      ((it.loadLines before).1.loadLine bad (LineNumber.after it.lineCount (before.length + 1))).2
        = .error fault ∧
      fault.line = LineNumber.after it.lineCount (before.length + 1)) ∧
    (∃ new, it'.lines = it.lines ++ new) ∧ it'.caseId = it.caseId := by
  induction texts generalizing it with
  | nil => exact absurd h (by simp)
  | cons text texts ih =>
    rw [loadLines_cons] at h
    cases hline : it.loadLine text (it.lineCount + 1) with
    | mk it₁ result =>
      rw [hline] at h
      cases result with
      | error f =>
        -- the first line of the rest is the one that cannot be loaded
        cases h
        obtain ⟨rfl, hnumber⟩ := loadLine_error hline
        rw [LineNumber.add_one_eq_after] at hline hnumber
        refine ⟨⟨[], text, texts, rfl, rfl, ?_, hnumber⟩, ⟨[], ?_⟩, rfl⟩
        · rw [loadLines_nil, List.length_nil, Nat.zero_add, hline]
        · exact (List.append_nil it.lines).symm
      | ok loaded? =>
        -- it comes later, and numbers are counted from here on
        obtain ⟨hext, hcount⟩ := loadLine_extends hline
        rw [LineNumber.max_add_one] at hcount
        obtain ⟨⟨before, bad, rest, htexts, hbefore, hbad, hnumber⟩, ⟨new, hnew⟩, hcase⟩ := ih h
        have hshift : LineNumber.after it₁.lineCount (before.length + 1)
            = LineNumber.after it.lineCount ((text :: before).length + 1) := by
          rw [hcount, LineNumber.after_advance it.lineCount 1 (Nat.succ_pos _), List.length_cons,
            Nat.add_comm 1]
        have hthrough : it.loadLines (text :: before) = it₁.loadLines before := by
          rw [loadLines_cons, hline]
        rw [hshift] at hbad hnumber
        refine ⟨⟨text :: before, bad, rest, by rw [htexts, List.cons_append], ?_, ?_, hnumber⟩,
          ⟨loaded?.toList ++ new, ?_⟩, hcase.trans hext.caseId⟩
        · rw [hthrough, hbefore]
        · rw [hthrough, hbad]
        · rw [hnew, hext.lines, List.append_assoc]

/-- Taking back added lines restores the interpreter they were added to: each part of the state
comes back by its own means, and the case id has never changed. -/
theorem rollBack_eq {new : List Line} (hlines : it'.lines = it.lines ++ new)
    (hcase : it'.caseId = it.caseId) : it'.rollBack it = it := by
  have hloaded : it'.loaded = new.reverse ++ it.loaded := by
    have hrev : it'.loaded = (it.lines ++ new).reverse := by
      rw [← hlines, lines, List.reverse_reverse]
    rw [hrev, List.reverse_append, lines, List.reverse_reverse]
  -- the lines added last are first in the store
  have hdrop : it'.loaded.drop (it'.loaded.length - it.loaded.length) = it.loaded := by
    rw [hloaded, List.length_append, Nat.add_sub_cancel, List.drop_left]
  unfold rollBack
  rw [hdrop, hcase]

theorem load_eq_of_ok {text : String} (h : (it.load text).2 = .ok ()) :
    it.loadLines (Text.lines text) = ((it.load text).1, .ok ()) := by
  unfold load at h ⊢
  split at h
  · next loaded hload => rw [hload]
  · exact absurd h (by simp)

theorem load_error {text : String} {fault : LoadFault} (h : (it.load text).2 = .error fault) :
    (it.load text).1 = it ∧ ∃ it', it.loadLines (Text.lines text) = (it', .error fault) := by
  unfold load at h ⊢
  split at h
  · exact absurd h (by simp)
  · next loaded f hload =>
    cases h
    obtain ⟨_, ⟨new, hnew⟩, hcase⟩ := exists_first_fault hload
    exact ⟨rollBack_eq hnew hcase, loaded, hload⟩

/-- The `k`-th line has `k` lines before it. -/
theorem splits_of_getElem? {texts : List String} {k : Nat} {text : String}
    (hk : texts[k]? = some text) :
    texts = texts.take k ++ text :: texts.drop (k + 1) ∧ (texts.take k).length = k := by
  obtain ⟨hlt, hget⟩ := List.getElem?_eq_some_iff.1 hk
  refine ⟨?_, List.length_take_of_le (Nat.le_of_lt hlt)⟩
  rw [← hget, ← List.drop_eq_getElem_cons hlt, List.take_append_drop]

/-- If a text is loaded, so is each of its lines, at the number of its place. -/
theorem loadLine_of_append {before rest : List String} {text : String}
    (h : it.loadLines (before ++ text :: rest) = (it', .ok ())) :
    ∃ it₁ it₂ loaded?, it.loadLines before = (it₁, .ok ()) ∧
      it₁.loadLine text (LineNumber.after it.lineCount (before.length + 1))
        = (it₂, .ok loaded?) := by
  induction before generalizing it with
  | nil =>
    rw [List.nil_append, loadLines_cons, LineNumber.add_one_eq_after] at h
    refine ⟨it, ?_⟩
    cases hline : it.loadLine text (LineNumber.after it.lineCount 1) with
    | mk it₂ result =>
      rw [hline] at h
      cases result with
      | error fault => exact absurd h (by simp)
      | ok loaded? => exact ⟨it₂, loaded?, rfl, rfl⟩
  | cons first before ih =>
    rw [List.cons_append, loadLines_cons] at h
    cases hfirst : it.loadLine first (it.lineCount + 1) with
    | mk it₀ result =>
      rw [hfirst] at h
      cases result with
      | error fault => exact absurd h (by simp)
      | ok loaded? =>
        obtain ⟨_, hcount⟩ := loadLine_extends hfirst
        obtain ⟨it₁, it₂, said, hbefore, htext⟩ := ih h
        rw [LineNumber.max_add_one] at hcount
        rw [hcount, LineNumber.after_advance it.lineCount 1 (Nat.succ_pos _), Nat.add_comm 1]
          at htext
        refine ⟨it₁, it₂, said, ?_, htext⟩
        rw [loadLines_cons, hfirst]
        exact hbefore

/-- In a text that is loaded, each line that is not blank says something, under its own number. -/
theorem at?_of_loadLines {texts : List String} (h : it.loadLines texts = (it', .ok ())) {k : Nat}
    {text : String} (hk : texts[k]? = some text)
    (hblank : Text.isBlankText (Text.dropReturns text) = false) :
    ∃ line, Line.at? it.lineCount (k + 1) text = some line ∧ line.raw = Text.dropReturns text ∧
      line.number = LineNumber.after it.lineCount (k + 1) := by
  obtain ⟨hsplit, hlength⟩ := splits_of_getElem? hk
  rw [hsplit] at h
  obtain ⟨it₁, it₂, loaded?, _, hline⟩ := loadLine_of_append h
  rw [hlength] at hline
  rcases loadLine_cases it₁ text (LineNumber.after it.lineCount (k + 1)) with
    ⟨hb, _⟩ | ⟨fault, _, _, heq⟩ | ⟨line, _, _, hread, _, _⟩
  · exact absurd hb (by simp [hblank])
  · rw [heq] at hline
    exact absurd hline (by simp)
  · refine ⟨line, ?_, Line.raw_number_of_read hread⟩
    rw [Line.at?, if_neg (by simp [hblank]), hread]
    rfl

/-! ## Loading a text -/

/-- **Loading is all or nothing.** If some line of a text cannot be loaded, the interpreter is what
it was, and the fault bears the number of the first such line. Otherwise what the lines say is
added in order, each under the number of its place; names that were declared keep their value, the
other output names are declared without one, and the imports are carried out in order. A single
line that cannot be loaded changes no more than the counter. -/
theorem load_all_or_nothing (it : Interpreter n) (text : String) :
    (∀ fault, (it.load text).2 = .error fault →
      (it.load text).1 = it ∧
      ∃ before bad rest, Text.lines text = before ++ bad :: rest ∧
        (it.loadLines before).2 = .ok () ∧
        ((it.loadLines before).1.loadLine bad (LineNumber.after it.lineCount (before.length + 1))).2
          = .error fault ∧
        fault.line = LineNumber.after it.lineCount (before.length + 1)) ∧
    ((it.load text).2 = .ok () →
      let new := Line.ofTexts it.lineCount (Text.lines text)
      (it.load text).1.lines = it.lines ++ new ∧
      (∀ k line, (Text.lines text)[k]? = some line →
        Text.isBlankText (Text.dropReturns line) = false →
        ∃ said, Line.at? it.lineCount (k + 1) line = some said ∧
          said.raw = Text.dropReturns line ∧
          said.number = LineNumber.after it.lineCount (k + 1)) ∧
      (∀ name, (it.load text).1.vars.slots.get? name
        = (it.vars.slots.get? name).or
            (if some name ∈ new.map Line.output then some none else none)) ∧
      it.registry.importAll (new.flatMap Line.imports) = some (it.load text).1.registry ∧
      (it.load text).1.lineCount = LineNumber.advance it.lineCount (Text.lines text).length ∧
      (it.load text).1.caseId = it.caseId) ∧
    (∀ line number fault, (it.loadLine line number).2 = .error fault →
      (it.loadLine line number).1.lines = it.lines ∧
      (it.loadLine line number).1.vars = it.vars ∧
      (it.loadLine line number).1.registry = it.registry) := by
  refine ⟨fun fault hfault => ?_, fun hok => ?_, fun line number fault hfault => ?_⟩
  · obtain ⟨hsame, partway, hlines⟩ := load_error hfault
    obtain ⟨hfirst, _, _⟩ := exists_first_fault hlines
    exact ⟨hsame, hfirst⟩
  · have hlines := load_eq_of_ok hok
    obtain ⟨hext, hcount⟩ := loadLines_extends hlines
    exact ⟨hext.lines, fun k line hk hblank => at?_of_loadLines hlines hk hblank, hext.slots,
      hext.registry, hcount, hext.caseId⟩
  · have hline : it.loadLine line number = ((it.loadLine line number).1, .error fault) :=
      Prod.ext rfl hfault
    obtain ⟨hsame, _⟩ := loadLine_error hline
    rw [hsame]
    exact ⟨rfl, rfl, rfl⟩

/-- Past the greatest number lines are no longer numbered by their places. -/
theorem load_numbers_past_greatest :
    let it : Interpreter Id := ((withRegistry .new).loadLine "# c" 0xFFFFFFFFFFFFFFFF).1
    (it.load "# a\n# b").2 = .ok () ∧
      (it.load "# a\n# b").1.lines.map (·.number.toNat)
        ≠ it.lines.map (·.number.toNat) ++ [it.lineCount.toNat + 1, it.lineCount.toNat + 2] :=
  ⟨rfl, by decide⟩

end Interpreter

end KeywordRunner.Script
