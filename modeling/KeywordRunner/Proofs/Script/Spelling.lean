import KeywordRunner.Proofs.Script.Grammar
import Mathlib.Data.List.Forall2

/-!
# Proofs.Script.Spelling — writing words so that they are read again

Between quotes a word may be any text without a quote; most words need none. However the words of a
line are written, and however they are spaced, the line is read as these words.

* **`Line.Spells`**, **`Line.SpellsBinding`** — the ways to write a word, and the name of a result.
* **`Line.isRun_quote`**, **`Line.isRun_bare`** — what is written is one run.
* **`Line.read_of_spelling`** — it is read again.
-/

namespace KeywordRunner.Script.Line

/-! ## Ways to write a word -/

def quote (text : String) : List Char := '"' :: (text.toList ++ ['"'])

/-- A word is written between quotes, or bare if it would not fall apart or divide the line. -/
inductive Spells (text : String) : List Char → Prop where
  | quoted : Spells text (quote text)
  | bare (hne : text ≠ "") (hspace : ' ' ∉ text.toList) (hmark : text ≠ "as") :
      Spells text text.toList

/-- The name of the result comes behind an `as`, between quotes or, without a space, bare. -/
inductive SpellsBinding : Option String → List (List Char) → Prop where
  | none : SpellsBinding none []
  | quoted (name : String) : SpellsBinding (some name) ["as".toList, quote name]
  | bare (name : String) (hspace : ' ' ∉ name.toList) :
      SpellsBinding (some name) ["as".toList, name.toList]

/-! ## Runs and their words -/

/-- Between quotes a space may stand anywhere. -/
theorem SpacesQuoted.append_inside {opened : Nat} (hodd : opened % 2 = 1) {cs rest : List Char}
    (hquote : '"' ∉ cs) (h : SpacesQuoted opened rest) : SpacesQuoted opened (cs ++ rest) := by
  induction cs with
  | nil => exact h
  | cons c cs ih =>
    obtain ⟨hc, hcs⟩ := List.ne_and_not_mem_of_not_mem_cons hquote
    refine SpacesQuoted.cons (fun _ => hodd) ?_
    rw [if_neg hc.symm]
    exact ih hcs

theorem isRun_quote {text : String} (hquote : '"' ∉ text.toList) : IsRun (quote text) where
  ne_nil := by simp [quote]
  paired := by
    have hnone := List.count_eq_zero.2 hquote
    simp [quote, hnone]
  spaces := by
    have hlast : SpacesQuoted 1 ['"'] :=
      (spacesQuoted_nil _).cons fun hspace => absurd hspace (by decide)
    exact (SpacesQuoted.append_inside rfl hquote hlast).cons fun hspace => absurd hspace (by decide)

theorem isRun_bare {text : String} (hne : text ≠ "") (hquote : '"' ∉ text.toList)
    (hspace : ' ' ∉ text.toList) : IsRun text.toList where
  ne_nil := fun hnil => hne (String.toList_eq_nil_iff.1 hnil)
  paired := by rw [List.count_eq_zero.2 hquote]
  spaces := fun before after h => absurd (h ▸ by simp) hspace

theorem filter_of_not_mem {cs : List Char} (hquote : '"' ∉ cs) : cs.filter (· != '"') = cs :=
  List.filter_eq_self.2 fun _ hc => bne_iff_ne.2 fun heq => hquote (heq ▸ hc)

theorem ofRun_quote {text : String} (hquote : '"' ∉ text.toList) :
    Word.ofRun (quote text) = ⟨text, true⟩ := by
  have hfilter : (quote text).filter (· != '"') = text.toList := by
    simp [quote, filter_of_not_mem hquote]
  rw [Word.ofRun, hfilter, String.ofList_toList]
  simp [quote]

theorem ofRun_bare {text : String} (hquote : '"' ∉ text.toList) :
    Word.ofRun text.toList = ⟨text, false⟩ := by
  rw [Word.ofRun, filter_of_not_mem hquote, String.ofList_toList]
  simp [hquote]

/-- What spells a word is one run, which is read as that word and divides nothing. -/
theorem Spells.word {text : String} {run : List Char} (h : Spells text run)
    (hquote : '"' ∉ text.toList) :
    IsRun run ∧ (Word.ofRun run).text = text ∧ Word.ofRun run ≠ Word.mark := by
  cases h with
  | quoted =>
    rw [ofRun_quote hquote]
    exact ⟨isRun_quote hquote, rfl, by simp [Word.mark]⟩
  | bare hne hspace hmark =>
    rw [ofRun_bare hquote]
    exact ⟨isRun_bare hne hquote hspace, rfl, by simp [Word.mark, hmark]⟩

/-- The same for a list of words. -/
theorem words_of_spells {texts : List String} {runs : List (List Char)}
    (h : List.Forall₂ Spells texts runs) (hquotes : ∀ text ∈ texts, '"' ∉ text.toList) :
    (∀ run ∈ runs, IsRun run) ∧ (runs.map Word.ofRun).map (·.text) = texts ∧
      Word.mark ∉ runs.map Word.ofRun := by
  induction h with
  | nil => exact ⟨fun run hrun => absurd hrun List.not_mem_nil, rfl, List.not_mem_nil⟩
  | @cons text run texts runs hspells hrest ih =>
    obtain ⟨hquote, hquotes⟩ := List.forall_mem_cons.1 hquotes
    obtain ⟨hrun, htext, hmark⟩ := hspells.word hquote
    obtain ⟨hruns, htexts, hmarks⟩ := ih hquotes
    refine ⟨List.forall_mem_cons.2 ⟨hrun, hruns⟩, ?_, ?_⟩
    · rw [List.map_cons, List.map_cons, htext, htexts]
    · rw [List.map_cons]
      exact List.not_mem_cons_of_ne_of_not_mem hmark.symm hmarks

/-- A name behind `as` is one run as well, and read as it is. -/
theorem SpellsBinding.words {name : String} {tail : List (List Char)}
    (h : SpellsBinding (some name) tail) (hne : name ≠ "") (hquote : '"' ∉ name.toList) :
    (∀ run ∈ tail, IsRun run) ∧
      ∃ word, tail.map Word.ofRun = [Word.mark, word] ∧ word.text = name := by
  have hmark : IsRun "as".toList := isRun_bare (by decide) (by decide) (by decide)
  have hruns : ∀ {run : List Char}, IsRun run → ∀ run' ∈ ["as".toList, run], IsRun run' :=
    fun hrun => List.forall_mem_cons.2 ⟨hmark, List.forall_mem_singleton.2 hrun⟩
  cases h with
  | quoted =>
    refine ⟨hruns (isRun_quote hquote), ⟨name, true⟩, ?_, rfl⟩
    rw [List.map_cons, List.map_cons, ofRun_quote hquote]
    rfl
  | bare _ hspace =>
    refine ⟨hruns (isRun_bare hne hquote hspace), ⟨name, false⟩, ?_, rfl⟩
    rw [List.map_cons, List.map_cons, ofRun_bare hquote]
    rfl

/-! ## Lines -/

/-- A line that begins with a quote is no comment. -/
theorem startsComment_of_quote {first : String} {runs : List (List Char)} {raw : String}
    (h : Spaced (quote first :: runs) raw.toList) : startsComment raw = false := by
  unfold startsComment
  generalize raw.toList = cs at h
  cases h with
  | piece n run hgap hrest =>
    have hblank : ∀ c ∈ List.replicate n ' ', Text.isBlank c = true := by
      intro c hc
      rw [List.eq_of_mem_replicate hc]
      rfl
    rw [Text.dropStart, List.dropWhile_append_of_pos hblank]
    rfl

/-- **What is written is read again.** Let the first word of a line be written between quotes, every
other one between quotes or bare, and the name of the result, if there is one, behind an `as`.
However these pieces are spaced, the line is read as the words and the name. -/
theorem read_of_spelling {first : String} {rest : List String} {output : Option String}
    {written tail : List (List Char)} {raw : String}
    (hquotes : ∀ text ∈ first :: rest, '"' ∉ text.toList)
    (hname : ∀ name, output = some name →
      name ≠ "" ∧ '"' ∉ name.toList ∧ name.toList.head? ≠ some '$')
    (hwritten : List.Forall₂ Spells rest written) (htail : SpellsBinding output tail)
    (hline : Spaced (quote first :: (written ++ tail)) raw.toList) (number : LineNumber) :
    read raw number = .ok ⟨raw, number, .call (first :: rest) output⟩ := by
  have hcomment := startsComment_of_quote hline
  obtain ⟨hfirst, hquotes⟩ := List.forall_mem_cons.1 hquotes
  obtain ⟨hruns, htexts, hmarks⟩ := words_of_spells hwritten hquotes
  have hrunFirst := isRun_quote hfirst
  -- the words before the `as`, if there is one
  have hfront : Word.mark ∉ Word.ofRun (quote first) :: written.map Word.ofRun := by
    rw [ofRun_quote hfirst]
    exact List.not_mem_cons_of_ne_of_not_mem (by simp [Word.mark]) hmarks
  have hitems : (Word.ofRun (quote first) :: written.map Word.ofRun).map (·.text)
      = first :: rest := by
    rw [List.map_cons, htexts, ofRun_quote hfirst]
  cases output with
  | none =>
    cases htail
    rw [List.append_nil] at hline
    have hall : ∀ run ∈ quote first :: written, IsRun run :=
      List.forall_mem_cons.2 ⟨hrunFirst, hruns⟩
    rw [read_of_paired hcomment number (paired_of_spaced hline hall), words_of_spaced hline hall,
      List.map_cons, splitBinding_of_not_mem hfront, hitems]
  | some name =>
    obtain ⟨hne, hquote, hdollar⟩ := hname name rfl
    obtain ⟨hrunsTail, word, htail, hword⟩ := htail.words hne hquote
    have hall : ∀ run ∈ quote first :: (written ++ tail), IsRun run :=
      List.forall_mem_cons.2 ⟨hrunFirst, List.forall_mem_append.2 ⟨hruns, hrunsTail⟩⟩
    have hbare : isBareName word.text = true := isBareName_iff.2 ⟨hword ▸ hne, hword ▸ hdollar⟩
    rw [read_of_paired hcomment number (paired_of_spaced hline hall), words_of_spaced hline hall,
      List.map_cons, List.map_append, htail, ← List.cons_append, splitBinding_at_mark hfront,
      if_neg (List.cons_ne_nil _ _), hitems]
    dsimp only
    rw [if_pos hbare, hword]

/-- Words that are empty, say `as`, or look like a comment or a variable, and a name with a space. -/
theorem read_of_spelling_odd_words :
    List.Forall₂ Spells ["", "as", "# $x", "b$"]
        [quote "", quote "as", quote "# $x", "b$".toList] ∧
      Spaced (quote "say" :: ([quote "", quote "as", quote "# $x", "b$".toList]
        ++ ["as".toList, quote "my v"])) " \"say\" \"\"  \"as\" \"# $x\" b$ as \"my v\" ".toList ∧
      read " \"say\" \"\"  \"as\" \"# $x\" b$ as \"my v\" " 7
        = .ok ⟨" \"say\" \"\"  \"as\" \"# $x\" b$ as \"my v\" ", 7,
            .call ["say", "", "as", "# $x", "b$"] (some "my v")⟩ := by
  have hquotes : ∀ text ∈ ["say", "", "as", "# $x", "b$"], '"' ∉ text.toList := by decide
  have hname : ∀ name, some "my v" = some name →
      name ≠ "" ∧ '"' ∉ name.toList ∧ name.toList.head? ≠ some '$' := by
    intro name heq
    cases heq
    decide
  have hwritten : List.Forall₂ Spells ["", "as", "# $x", "b$"]
      [quote "", quote "as", quote "# $x", "b$".toList] :=
    .cons .quoted (.cons .quoted (.cons .quoted
      (.cons (.bare (by decide) (by decide) (by decide)) .nil)))
  have hline : Spaced (quote "say" :: ([quote "", quote "as", quote "# $x", "b$".toList]
      ++ ["as".toList, quote "my v"])) " \"say\" \"\"  \"as\" \"# $x\" b$ as \"my v\" ".toList :=
    .piece 1 (quote "say") (Or.inr rfl) (.piece 1 (quote "") (Or.inr rfl)
      (.piece 2 (quote "as") (Or.inr rfl) (.piece 1 (quote "# $x") (Or.inr rfl)
        (.piece 1 "b$".toList (Or.inr rfl) (.piece 1 "as".toList (Or.inr rfl)
          (.piece 1 (quote "my v") (Or.inr rfl) (.blank 1)))))))
  exact ⟨hwritten, hline, read_of_spelling hquotes hname hwritten (.quoted "my v") hline 7⟩

end KeywordRunner.Script.Line
