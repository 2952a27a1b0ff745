import KeywordRunner.Script.Line
import Mathlib.Data.List.TakeWhile

/-!
# Proofs.Script.Grammar — which lines can be read, and as what

The runs of a line are its longest pieces without a space outside quotes. A line whose quotes are
paired falls into runs in one way only, and the words that a line is read as are those runs without
their quotes.

* **`Line.Spaced`**, **`Line.IsRun`** — pieces with spaces around them, and what a run is.
* **`Line.runs_of_spaced`**, **`Line.exists_spaced`** — cutting a line gives its runs, and it has
  some.
* **`Line.splitBinding_at_mark`** — what the first `as` comes to.
* **`Line.read_follows_grammar`** — every line that is no comment, read or refused.
-/

namespace KeywordRunner.Script.Line

/-! ## Runs -/

/-- Pieces in a line: spaces may stand before each and after the last, and each ends before a space
or with the line. -/
inductive Spaced : List (List Char) → List Char → Prop where
  | blank (n : Nat) : Spaced [] (List.replicate n ' ')
  | piece (n : Nat) (run : List Char) {runs : List (List Char)} {rest : List Char}
      (hgap : rest = [] ∨ rest.head? = some ' ') (hrest : Spaced runs rest) :
      Spaced (run :: runs) (List.replicate n ' ' ++ (run ++ rest))

/-- With so many quotes before it, every space of a text is between quotes. -/
def SpacesQuoted (opened : Nat) (cs : List Char) : Prop :=
  ∀ before after, cs = before ++ ' ' :: after → (opened + before.count '"') % 2 = 1

/-- A run: it is not empty, its quotes are paired, and its spaces are between quotes. -/
structure IsRun (run : List Char) : Prop where
  ne_nil : run ≠ []
  paired : run.count '"' % 2 = 0
  spaces : SpacesQuoted 0 run

theorem spacesQuoted_nil (opened : Nat) : SpacesQuoted opened [] :=
  fun before after h => absurd h (by simp)

theorem SpacesQuoted.tail {opened : Nat} {c : Char} {cs : List Char}
    (h : SpacesQuoted opened (c :: cs)) :
    SpacesQuoted (opened + if c = '"' then 1 else 0) cs := by
  intro before after heq
  have hspace := h (c :: before) after (by rw [heq, List.cons_append])
  rw [List.count_cons] at hspace
  simp only [beq_iff_eq] at hspace
  omega

theorem SpacesQuoted.of_even {opened : Nat} {cs : List Char} (h : SpacesQuoted opened cs)
    (heven : opened % 2 = 0) : SpacesQuoted 0 cs := by
  intro before after heq
  have hspace := h before after heq
  omega

/-- A character before the text changes nothing if it is no space outside quotes. -/
theorem SpacesQuoted.cons {opened : Nat} {c : Char} {cs : List Char}
    (hc : c = ' ' → opened % 2 = 1)
    (h : SpacesQuoted (opened + if c = '"' then 1 else 0) cs) : SpacesQuoted opened (c :: cs) := by
  intro before after heq
  cases before with
  | nil =>
    cases heq
    simpa using hc rfl
  | cons b before =>
    rw [List.cons_append] at heq
    cases heq
    have hspace := h before after rfl
    rw [List.count_cons]
    simp only [beq_iff_eq]
    omega

/-- The same, one character at a time. -/
theorem spacesQuoted_cons_iff {opened : Nat} {c : Char} {cs : List Char} :
    SpacesQuoted opened (c :: cs) ↔
      (c = ' ' → opened % 2 = 1) ∧ SpacesQuoted (opened + if c = '"' then 1 else 0) cs :=
  ⟨fun h => ⟨fun hc => h [] cs (hc ▸ rfl), h.tail⟩, fun h => h.2.cons h.1⟩

instance decidableSpacesQuoted :
    (opened : Nat) → (cs : List Char) → Decidable (SpacesQuoted opened cs)
  | opened, [] => .isTrue (spacesQuoted_nil opened)
  | opened, c :: cs =>
    have := decidableSpacesQuoted (opened + if c = '"' then 1 else 0) cs
    decidable_of_iff _ spacesQuoted_cons_iff.symm

instance (run : List Char) : Decidable (IsRun run) :=
  decidable_of_iff (run ≠ [] ∧ run.count '"' % 2 = 0 ∧ SpacesQuoted 0 run)
    ⟨fun h => ⟨h.1, h.2.1, h.2.2⟩, fun h => ⟨h.ne_nil, h.paired, h.spaces⟩⟩

/-! ## Cutting a line -/

theorem splitRuns_ne_nil (inside : Bool) (cs : List Char) : splitRuns inside cs ≠ [] := by
  cases cs with
  | nil => simp [splitRuns]
  | cons c cs =>
    rw [splitRuns]
    split
    · simp
    · split <;> simp

theorem splitRuns_space (cs : List Char) :
    splitRuns false (' ' :: cs) = [] :: splitRuns false cs := by
  rw [splitRuns, if_pos ⟨rfl, rfl⟩]

/-- Any other character is part of the first run. -/
theorem splitRuns_cons {inside : Bool} {c : Char} (h : ¬(c = ' ' ∧ inside = false))
    (cs : List Char) :
    splitRuns inside (c :: cs)
      = (splitRuns (if c = '"' then !inside else inside) cs).modifyHead (c :: ·) := by
  rw [splitRuns, if_neg h]
  split
  · next hnil => exact absurd hnil (splitRuns_ne_nil _ cs)
  · next r rs hcons => rw [hcons, List.modifyHead_cons]

/-- One more quote changes sides. -/
theorem inside_succ (opened : Nat) (c : Char) :
    (if c = '"' then !(opened % 2 == 1) else (opened % 2 == 1))
      = ((opened + if c = '"' then 1 else 0) % 2 == 1) := by
  split
  · rcases Nat.mod_two_eq_zero_or_one opened with h | h <;> simp [Nat.add_mod, h]
  · rfl

/-- A text without spaces outside quotes is in one piece, and begins the first run. -/
theorem splitRuns_append {opened : Nat} {run : List Char} (h : SpacesQuoted opened run)
    (rest : List Char) :
    splitRuns (opened % 2 == 1) (run ++ rest)
      = (splitRuns ((opened + run.count '"') % 2 == 1) rest).modifyHead (run ++ ·) := by
  induction run generalizing opened with
  | nil =>
    cases hrest : splitRuns (opened % 2 == 1) rest with
    | nil => exact absurd hrest (splitRuns_ne_nil _ rest)
    | cons r rs => simp [hrest]
  | cons c run ih =>
    have hspace : ¬(c = ' ' ∧ (opened % 2 == 1) = false) := by
      rintro ⟨rfl, houtside⟩
      have hodd : opened % 2 = 1 := h [] run rfl
      rw [hodd] at houtside
      exact absurd houtside (by decide)
    have hcount : opened + (c :: run).count '"'
        = (opened + if c = '"' then 1 else 0) + run.count '"' := by
      rw [List.count_cons]
      simp only [beq_iff_eq]
      omega
    rw [List.cons_append, splitRuns_cons hspace, inside_succ, ih h.tail, hcount,
      List.modifyHead_modifyHead]
    rfl

theorem splitRuns_replicate (n : Nat) (cs : List Char) :
    splitRuns false (List.replicate n ' ' ++ cs) = List.replicate n [] ++ splitRuns false cs := by
  induction n with
  | zero => rfl
  | succ n ih => rw [List.replicate_succ, List.cons_append, splitRuns_space, ih]; rfl

/-- Where a run ends there is nothing, or a space. -/
theorem splitRuns_gap {rest : List Char} (h : rest = [] ∨ rest.head? = some ' ') :
    ∃ later, splitRuns false rest = [] :: later := by
  cases rest with
  | nil => exact ⟨[], rfl⟩
  | cons c rest =>
    have hc : c = ' ' := by simpa using h
    rw [hc, splitRuns_space]
    exact ⟨_, rfl⟩

/-- One more space in front. -/
theorem Spaced.space {runs : List (List Char)} {cs : List Char} (h : Spaced runs cs) :
    Spaced runs (' ' :: cs) := by
  cases h with
  | blank n => exact .blank (n + 1)
  | piece n run hgap hrest => exact .piece (n + 1) run hgap hrest

/-- Cutting a line gives its runs. -/
theorem runs_of_spaced {runs : List (List Char)} {cs : List Char} (h : Spaced runs cs)
    (hruns : ∀ run ∈ runs, IsRun run) : (splitRuns false cs).filter (· ≠ []) = runs := by
  induction h with
  | blank n =>
    have hempty := splitRuns_replicate n []
    rw [List.append_nil] at hempty
    rw [hempty, List.filter_append, List.filter_replicate]
    rfl
  | @piece n run runs rest hgap hrest ih =>
    obtain ⟨hrun, hruns⟩ := List.forall_mem_cons.1 hruns
    obtain ⟨later, hlater⟩ := splitRuns_gap hgap
    have hpaired : ((0 + run.count '"') % 2 == 1) = false := by
      rw [Nat.zero_add, hrun.paired]
      rfl
    -- the run fills up to the gap what is cut off there
    have hcut : splitRuns false (run ++ rest) = run :: later := by
      have happend := splitRuns_append hrun.spaces rest
      rw [hpaired, hlater, List.modifyHead_cons, List.append_nil] at happend
      exact happend
    have hrest := ih hruns
    rw [hlater] at hrest
    rw [splitRuns_replicate, hcut, List.filter_append, List.filter_replicate]
    simpa [hrun.ne_nil] using hrest

/-- A text whose quotes are paired, those before it included, is the end of a run, and after that
falls into runs. -/
theorem exists_run_append (cs : List Char) (opened : Nat)
    (hpaired : (opened + cs.count '"') % 2 = 0) :
    ∃ run rest runs, cs = run ++ rest ∧ (opened + run.count '"') % 2 = 0 ∧
      SpacesQuoted opened run ∧ (rest = [] ∨ rest.head? = some ' ') ∧ Spaced runs rest ∧
      ∀ run ∈ runs, IsRun run := by
  induction cs generalizing opened with
  | nil =>
    exact ⟨[], [], [], rfl, hpaired, spacesQuoted_nil _, Or.inl rfl, .blank 0, by simp⟩
  | cons c cs ih =>
    rw [List.count_cons] at hpaired
    simp only [beq_iff_eq] at hpaired
    obtain ⟨run, rest, runs, rfl, hrun, hquoted, hrest, hspaced, hruns⟩ :=
      ih (opened + if c = '"' then 1 else 0) (by omega)
    by_cases hspace : c = ' ' ∧ opened % 2 = 0
    · -- the run ends here, and what was found is the next one, unless it is empty
      obtain ⟨rfl, heven⟩ := hspace
      rw [if_neg (by decide), Nat.add_zero] at hrun hquoted
      have hnext : Spaced (if run = [] then runs else run :: runs) (' ' :: (run ++ rest)) := by
        split
        · next hnil =>
          rw [hnil, List.nil_append]
          exact hspaced.space
        · exact .piece 1 run hrest hspaced
      refine ⟨[], ' ' :: (run ++ rest), _, rfl, heven, spacesQuoted_nil _, Or.inr rfl, hnext, ?_⟩
      split
      · exact hruns
      · next hne =>
        exact List.forall_mem_cons.2 ⟨⟨hne, by omega, hquoted.of_even heven⟩, hruns⟩
    · have hodd : c = ' ' → opened % 2 = 1 := fun hc => by
        have hne : ¬opened % 2 = 0 := fun heven => hspace ⟨hc, heven⟩
        omega
      refine ⟨c :: run, rest, runs, rfl, ?_, hquoted.cons hodd, hrest, hspaced, hruns⟩
      rw [List.count_cons]
      simp only [beq_iff_eq]
      omega

/-- A line whose quotes are paired falls into runs. -/
theorem exists_spaced {cs : List Char} (hpaired : cs.count '"' % 2 = 0) :
    ∃ runs, Spaced runs cs ∧ ∀ run ∈ runs, IsRun run := by
  obtain ⟨run, rest, runs, rfl, hrun, hquoted, hrest, hspaced, hruns⟩ :=
    exists_run_append cs 0 (by omega)
  by_cases hnil : run = []
  · subst hnil
    exact ⟨runs, hspaced, hruns⟩
  · have hfirst : IsRun run := ⟨hnil, by omega, hquoted⟩
    exact ⟨run :: runs, .piece 0 run hrest hspaced, List.forall_mem_cons.2 ⟨hfirst, hruns⟩⟩

/-- The quotes of a line that falls into runs are paired. -/
theorem paired_of_spaced {runs : List (List Char)} {cs : List Char} (h : Spaced runs cs)
    (hruns : ∀ run ∈ runs, IsRun run) : cs.count '"' % 2 = 0 := by
  have hspaces : ∀ n, (List.replicate n ' ').count '"' = 0 :=
    fun n => List.count_eq_zero.2 fun hmem => absurd (List.eq_of_mem_replicate hmem) (by decide)
  induction h with
  | blank n => rw [hspaces]
  | piece n run hgap hrest ih =>
    obtain ⟨hrun, hruns⟩ := List.forall_mem_cons.1 hruns
    have hrunPaired := hrun.paired
    have hrestPaired := ih hruns
    rw [List.count_append, List.count_append, hspaces]
    omega

theorem words_of_spaced {runs : List (List Char)} {raw : String} (h : Spaced runs raw.toList)
    (hruns : ∀ run ∈ runs, IsRun run) : words raw = runs.map Word.ofRun := by
  rw [words, runs_of_spaced h hruns]

/-! ## What words keep of a line -/

/-- A text without its quotes and without the spaces outside them. -/
def kept (inside : Bool) : List Char → List Char
  | [] => []
  | c :: cs =>
    if c = '"' then kept (!inside) cs
    else if c = ' ' ∧ inside = false then kept false cs
    else c :: kept inside cs

theorem flatten_splitRuns (inside : Bool) (cs : List Char) :
    (splitRuns inside cs).flatten.filter (· != '"') = kept inside cs := by
  induction cs generalizing inside with
  | nil => rfl
  | cons c cs ih =>
    by_cases hspace : c = ' ' ∧ inside = false
    · obtain ⟨rfl, rfl⟩ := hspace
      rw [splitRuns_space, List.flatten_cons, List.nil_append, ih, kept, if_neg (by decide),
        if_pos ⟨rfl, rfl⟩]
    · -- the character stands in front of what the rest keeps, unless it is a quote
      have hflatten : ∀ (d : Char) (runs : List (List Char)), runs ≠ [] →
          (runs.modifyHead (d :: ·)).flatten = d :: runs.flatten := by
        intro d runs hne
        cases runs with
        | nil => exact absurd rfl hne
        | cons r rs => rfl
      rw [splitRuns_cons hspace, hflatten c _ (splitRuns_ne_nil _ cs), List.filter_cons, ih, kept,
        if_neg hspace]
      by_cases hquote : c = '"'
      · simp [hquote]
      · simp [hquote]

/-- The words of a line leave out nothing else. -/
theorem flatMap_words (raw : String) :
    (words raw).flatMap (·.text.toList) = kept false raw.toList := by
  have hruns : ∀ runs : List (List Char),
      ((runs.filter (· ≠ [])).map Word.ofRun).flatMap (·.text.toList)
        = runs.flatten.filter (· != '"') := by
    intro runs
    induction runs with
    | nil => rfl
    | cons run runs ih =>
      rw [List.flatten_cons, List.filter_append, ← ih]
      by_cases hnil : run = []
      · simp [hnil]
      · simp [hnil, Word.ofRun]
  rw [words, hruns, flatten_splitRuns]

/-! ## The first `as` -/

/-- The word that divides a call from the name of its result. -/
def Word.mark : Word := ⟨"as", false⟩

theorem Word.isAs_iff {w : Word} : w.isAs = true ↔ w = mark := by
  obtain ⟨text, quoted⟩ := w
  simp [isAs, mark, and_comm]

theorem not_isAs_of_not_mem {ws : List Word} (h : Word.mark ∉ ws) :
    ∀ w ∈ ws, (!w.isAs) = true := by
  intro w hw
  have hne : ¬w.isAs = true := fun hmark => h (Word.isAs_iff.1 hmark ▸ hw)
  simpa using hne

theorem splitBinding_of_not_mem {ws : List Word} (h : Word.mark ∉ ws) :
    splitBinding ws = .ok (ws.map (·.text), none) := by
  have hall := not_isAs_of_not_mem h
  unfold splitBinding
  rw [List.dropWhile_eq_nil_iff.2 hall, List.takeWhile_eq_self_iff.2 hall]

/-- The first mark decides, whatever comes after it. -/
theorem splitBinding_at_mark {front : List Word} (h : Word.mark ∉ front) (after : List Word) :
    splitBinding (front ++ Word.mark :: after)
      = if front = [] then .error .noKeyword
        else
          match after with
          | [] => .error .noName
          | [name] =>
            if isBareName name.text then .ok (front.map (·.text), some name.text)
            else .error .badName
          | _ => .error .severalNames := by
  have hall := not_isAs_of_not_mem h
  have hdrop : (front ++ Word.mark :: after).dropWhile (fun w => !w.isAs)
      = Word.mark :: after := by
    rw [List.dropWhile_append_of_pos hall, List.dropWhile_cons_of_neg (by decide)]
  have htake : (front ++ Word.mark :: after).takeWhile (fun w => !w.isAs) = front := by
    rw [List.takeWhile_append_of_pos hall, List.takeWhile_cons_of_neg (by decide),
      List.append_nil]
  unfold splitBinding
  rw [hdrop]
  generalize (front ++ Word.mark :: after).takeWhile (fun w => !w.isAs) = items at htake ⊢
  subst htake
  rfl

theorem isBareName_iff {name : String} :
    isBareName name = true ↔ name ≠ "" ∧ name.toList.head? ≠ some '$' := by
  rw [isBareName, Bool.and_eq_true, bne_iff_ne, bne_iff_ne]

/-- A mark binds nothing without words before it, or unless one word that can name a variable comes
after it. -/
theorem error_at_mark_iff {front : List Word} (h : Word.mark ∉ front) {after : List Word} :
    (∃ reason, splitBinding (front ++ Word.mark :: after) = .error reason) ↔
      front = [] ∨ after.length ≠ 1 ∨
        ∃ name, after = [name] ∧ (name.text = "" ∨ name.text.toList.head? = some '$') := by
  rw [splitBinding_at_mark h]
  by_cases hfront : front = []
  · simp [hfront]
  rw [if_neg hfront]
  match after with
  | [] => simp
  | [name] =>
    cases hbare : isBareName name.text with
    | true =>
      obtain ⟨hne, hdollar⟩ := isBareName_iff.1 hbare
      simp [hfront, hne, hdollar, hbare]
    | false =>
      have hbad : ¬(name.text ≠ "" ∧ name.text.toList.head? ≠ some '$') :=
        fun hgood => absurd (isBareName_iff.2 hgood) (by simp [hbare])
      refine ⟨fun _ => Or.inr (Or.inr ⟨name, rfl, ?_⟩), fun _ => ⟨.badName, by simp [hbare]⟩⟩
      by_cases hempty : name.text = ""
      · exact Or.inl hempty
      · exact Or.inr (not_not.1 fun hdollar => hbad ⟨hempty, hdollar⟩)
  | _ :: _ :: _ => simp

/-! ## Lines -/

section Read

variable {raw : String} (hcomment : startsComment raw = false) (number : LineNumber)

include hcomment

theorem read_of_open (hopen : raw.toList.count '"' % 2 = 1) :
    read raw number = .error ⟨number, .unterminatedQuote⟩ := by
  unfold read hasOpenQuote
  rw [hcomment, hopen]
  rfl

theorem read_of_paired (hpaired : raw.toList.count '"' % 2 = 0) :
    read raw number
      = match splitBinding (words raw) with
        | .error reason => .error ⟨number, .malformedBinding reason⟩
        | .ok (items, output) => .ok ⟨raw, number, .call items output⟩ := by
  unfold read hasOpenQuote
  rw [hcomment, hpaired]
  rfl

/-- A line is refused for an open quote exactly if its quotes are not paired. -/
theorem read_open_iff :
    read raw number = .error ⟨number, .unterminatedQuote⟩ ↔ raw.toList.count '"' % 2 = 1 := by
  refine ⟨fun h => ?_, read_of_open hcomment number⟩
  rcases Nat.mod_two_eq_zero_or_one (raw.toList.count '"') with hpaired | hopen
  · rw [read_of_paired hcomment number hpaired] at h
    split at h <;> simp at h
  · exact hopen

theorem read_malformed_iff (hpaired : raw.toList.count '"' % 2 = 0) :
    (∃ reason, read raw number = .error ⟨number, .malformedBinding reason⟩) ↔
      ∃ reason, splitBinding (words raw) = .error reason := by
  rw [read_of_paired hcomment number hpaired]
  cases splitBinding (words raw) with
  | error reason => simp
  | ok call => simp

end Read

/-- **A line is read as its grammar says.** A line that is no comment is refused for an open quote
exactly if its quotes are not paired, whatever its words are. If they are, it falls into runs, in
one way only, and its words are these runs without their quotes. It is refused for its binding
exactly if an unquoted `as` is among them and the first one has no word before it, or does not come
before exactly one word, or before one that is empty or starts with `$`; otherwise the words before
that `as` are its items and the word after it names its result, and without any such `as` all words
are items. There are items unless the line is all spaces, and the words together are the line but
for its quotes and the spaces outside them. -/
theorem read_follows_grammar {raw : String} (hcomment : startsComment raw = false)
    (number : LineNumber) :
    (read raw number = .error ⟨number, .unterminatedQuote⟩ ↔ raw.toList.count '"' % 2 = 1) ∧
    (raw.toList.count '"' % 2 = 0 → ∃! runs, Spaced runs raw.toList ∧ ∀ run ∈ runs, IsRun run) ∧
    ∀ runs, Spaced runs raw.toList → (∀ run ∈ runs, IsRun run) →
      let ws := runs.map Word.ofRun
      ((∃ reason, read raw number = .error ⟨number, .malformedBinding reason⟩) ↔
        ∃ front after, ws = front ++ Word.mark :: after ∧ Word.mark ∉ front ∧
          (front = [] ∨ after.length ≠ 1 ∨
            ∃ name, after = [name] ∧ (name.text = "" ∨ name.text.toList.head? = some '$'))) ∧
      (Word.mark ∉ ws →
        read raw number = .ok ⟨raw, number, .call (ws.map (·.text)) none⟩) ∧
      (∀ front name, ws = front ++ [Word.mark, name] → Word.mark ∉ front → front ≠ [] →
        name.text ≠ "" → name.text.toList.head? ≠ some '$' →
          read raw number = .ok ⟨raw, number, .call (front.map (·.text)) (some name.text)⟩) ∧
      (∀ line, read raw number = .ok line → (∃ c ∈ raw.toList, c ≠ ' ') → line.items ≠ []) ∧
      ws.flatMap (·.text.toList) = kept false raw.toList := by
  refine ⟨read_open_iff hcomment number, fun hpaired => ?_, fun runs hspaced hruns => ?_⟩
  · obtain ⟨runs, hspaced, hruns⟩ := exists_spaced hpaired
    refine ⟨runs, ⟨hspaced, hruns⟩, fun runs' h => ?_⟩
    rw [← runs_of_spaced h.1 h.2, runs_of_spaced hspaced hruns]
  · intro ws
    have hpaired := paired_of_spaced hspaced hruns
    have hwords : words raw = ws := words_of_spaced hspaced hruns
    refine ⟨?_, fun hmark => ?_, fun front name hws hmark hfront hne hdollar => ?_,
      fun line hread hvisible => ?_, ?_⟩
    · rw [read_malformed_iff hcomment number hpaired, hwords]
      constructor
      · intro herror
        -- without a mark there would be nothing to refuse
        have hmem : Word.mark ∈ ws := not_not.1 fun hmark => by
          rw [splitBinding_of_not_mem hmark] at herror
          simp at herror
        obtain ⟨front, after, hws, hmark⟩ := List.eq_append_cons_of_mem hmem
        rw [hws] at herror
        exact ⟨front, after, hws, hmark, (error_at_mark_iff hmark).1 herror⟩
      · rintro ⟨front, after, hws, hmark, hbad⟩
        rw [hws]
        exact (error_at_mark_iff hmark).2 hbad
    · rw [read_of_paired hcomment number hpaired, hwords, splitBinding_of_not_mem hmark]
    · rw [read_of_paired hcomment number hpaired, hwords, hws, splitBinding_at_mark hmark,
        if_neg hfront]
      dsimp only
      rw [if_pos (isBareName_iff.2 ⟨hne, hdollar⟩)]
    · obtain ⟨c, hmem, hc⟩ := hvisible
      rw [read_of_paired hcomment number hpaired] at hread
      split at hread
      · exact absurd hread (by simp)
      · next items output hbinding =>
        cases hread
        exact items_ne_nil_of_splitBinding (words_ne_nil_of_mem hmem hc) hbinding
    · rw [← hwords, flatMap_words]

/-- Quotes in the middle of a word, an empty pair of them, and a name with a space. -/
theorem read_of_mixed_quotes :
    startsComment "  get\"a  b\"c \"\" as \"my v\" " = false ∧
      Spaced (["get\"a  b\"c", "\"\"", "as", "\"my v\""].map (·.toList))
        "  get\"a  b\"c \"\" as \"my v\" ".toList ∧
      (∀ run ∈ ["get\"a  b\"c", "\"\"", "as", "\"my v\""].map (·.toList), IsRun run) ∧
      read "  get\"a  b\"c \"\" as \"my v\" " 1
        = .ok ⟨"  get\"a  b\"c \"\" as \"my v\" ", 1, .call ["geta  bc", ""] (some "my v")⟩ := by
  have hcomment : startsComment "  get\"a  b\"c \"\" as \"my v\" " = false := by decide
  have hspaced : Spaced (["get\"a  b\"c", "\"\"", "as", "\"my v\""].map (·.toList))
      "  get\"a  b\"c \"\" as \"my v\" ".toList :=
    .piece 2 "get\"a  b\"c".toList (Or.inr rfl) (.piece 1 "\"\"".toList (Or.inr rfl)
      (.piece 1 "as".toList (Or.inr rfl) (.piece 1 "\"my v\"".toList (Or.inr rfl) (.blank 1))))
  have hruns : ∀ run ∈ ["get\"a  b\"c", "\"\"", "as", "\"my v\""].map (·.toList), IsRun run := by
    decide
  obtain ⟨_, _, hread⟩ := read_follows_grammar hcomment 1
  obtain ⟨_, _, hbound, _⟩ := hread _ hspaced hruns
  exact ⟨hcomment, hspaced, hruns,
    hbound [⟨"geta  bc", true⟩, ⟨"", true⟩] ⟨"my v", true⟩ rfl (by decide) (by decide) (by decide)
      (by decide)⟩

end KeywordRunner.Script.Line
