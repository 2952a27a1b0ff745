import KeywordRunner.Proofs.Script.Loading
import KeywordRunner.Proofs.Script.References

/-!
# Proofs.Script.Bindings — which bound names can be read again

A line binds a name after its `as`, and later lines refer to a variable by a word that starts with
`$`. Such a word names the variable up to its first point (see `Token.Refers`), so no word names a
variable whose own name holds a point.

* **`Line.isBareName_of_read`** — what a line can bind.
* **`bound_name_read_iff`** — a bound name can be read again exactly when it holds no point.
-/

namespace KeywordRunner.Script

/-! ## Names that lines bind -/

namespace Line

theorem isBareName_of_splitBinding {ws : List Word} {items : List String} {name : String}
    (h : splitBinding ws = .ok (items, some name)) : isBareName name = true := by
  unfold splitBinding at h
  dsimp only at h
  split at h
  · cases h
  · split at h
    · cases h
    · split at h
      · cases h
      · split at h
        · next hbare =>
          cases h
          exact hbare
        · cases h
      · cases h

/-- A line binds nothing but a name that is not empty and does not start with `$`. -/
theorem isBareName_of_read {raw : String} {number : LineNumber} {line : Line} {name : String}
    (h : read raw number = .ok line) (hname : line.output = some name) :
    isBareName name = true := by
  unfold read at h
  split at h
  · cases h
    cases hname
  · split at h
    · cases h
    · split at h
      · cases h
      · next items output hbinding =>
        cases h
        cases (show output = some name from hname)
        exact isBareName_of_splitBinding hbinding

theorem ne_empty_of_isBareName {name : String} (h : isBareName name = true) : name ≠ "" :=
  bne_iff_ne.1 (Bool.and_eq_true_iff.1 h).1

end Line

/-! ## Reading a bound name -/

namespace Variables

variable {vs : Variables} {name : String}

/-- A reference without attribute reads the variable, or null as long as it has no value. -/
theorem resolve_of_classify {word : String} (hword : Token.classify word = .variable name none)
    (hdeclared : vs.isDeclared name = true) :
    vs.resolve word = .ok ((vs.get? name).getD .null) := by
  obtain ⟨slot, hslot⟩ := isDeclared_iff.1 hdeclared
  unfold resolve get?
  rw [hword]
  dsimp only
  rw [hslot]
  rfl

theorem resolve_of_not_isDeclared {word : String} {attr : Option String}
    (hword : Token.classify word = .variable name attr) (hdeclared : vs.isDeclared name = false) :
    vs.resolve word = .error (.undefinedVariable name) := by
  have hslot : vs.slots.get? name = none := Option.isNone_iff_eq_none.1 (by
    rw [← Option.not_isSome]
    exact congrArg (!·) hdeclared)
  unfold resolve
  rw [hword]
  dsimp only
  rw [hslot]

end Variables

namespace Interpreter

variable {n : Type → Type}

/-- The names that a loaded text binds are declared. -/
theorem isDeclared_of_load {it : Interpreter n} {text : String} {line : Line} {name : String}
    (hload : (it.load text).2 = .ok ()) (hline : line ∈ (it.load text).1.lines.drop it.lines.length)
    (hname : line.output = some name) : (it.load text).1.vars.isDeclared name = true := by
  obtain ⟨hextends, _⟩ := loadLines_extends (load_eq_of_ok hload)
  rw [hextends.lines, List.drop_left] at hline
  exact hextends.isDeclared_output hline hname

end Interpreter

/-- **A bound name can be read again exactly when it holds no point.** Without one, `$` and the name
refer to that variable, and once the line is loaded they read its value, or null as long as it has
none. With one, they read an attribute of the variable named before the first point, which need not
be declared, and no word at all refers to the variable that the line binds. -/
theorem bound_name_read_iff {raw : String} {number : LineNumber} {line : Line} {name : String}
    (hread : Line.read raw number = .ok line) (hname : line.output = some name) :
    (Token.classify ("$" ++ name) = .variable name none ↔ '.' ∉ name.toList) ∧
    (∀ (n : Type → Type) (it : Interpreter n) (text : String), (it.load text).2 = .ok () →
      line ∈ (it.load text).1.lines.drop it.lines.length →
        (it.load text).1.vars.isDeclared name = true) ∧
    (∀ vs : Variables, vs.isDeclared name = true → '.' ∉ name.toList →
      vs.resolve ("$" ++ name) = .ok ((vs.get? name).getD .null)) ∧
    ('.' ∈ name.toList →
      (∀ word attr, Token.classify word ≠ .variable name attr) ∧
      ∃ before attr, name = before ++ "." ++ attr ∧ '.' ∉ before.toList ∧
        Token.classify ("$" ++ name) = .variable before (some attr) ∧
        ∀ vs : Variables, vs.isDeclared before = false →
          vs.resolve ("$" ++ name) = .error (.undefinedVariable before)) := by
  have hne : name ≠ "" := Line.ne_empty_of_isBareName (Line.isBareName_of_read hread hname)
  refine ⟨⟨fun hclass => (Token.classify_eq_variable_iff.1 hclass).not_mem_point,
    Token.classify_dollar hne⟩, ?_, ?_, ?_⟩
  · intro n it text hload hline
    exact Interpreter.isDeclared_of_load hload hline hname
  · intro vs hdeclared hpoint
    exact Variables.resolve_of_classify (Token.classify_dollar hne hpoint) hdeclared
  · intro hpoint
    obtain ⟨before, attr, rfl, hbefore⟩ := exists_point hpoint
    have hword := Token.classify_dollar_point hbefore attr
    refine ⟨fun word attr hclass => (Token.classify_eq_variable_iff.1 hclass).not_mem_point hpoint,
      before, attr, rfl, hbefore, hword, ?_⟩
    intro vs hdeclared
    exact Variables.resolve_of_not_isDeclared hword hdeclared

/-- A name in quotes may hold spaces, marks and a `$` further on; it is read again all the same. -/
theorem quoted_name_read_again :
    ∃ (it : Interpreter Id) (line : Line), Line.read "get 1 as \"my $v #1\"" 1 = .ok line ∧
      line.output = some "my $v #1" ∧
      Token.classify ("$" ++ "my $v #1") = .variable "my $v #1" none ∧
      (it.load "get 1 as \"my $v #1\"").2 = .ok () ∧
      line ∈ (it.load "get 1 as \"my $v #1\"").1.lines.drop it.lines.length ∧
      (it.load "get 1 as \"my $v #1\"").1.vars.resolve ("$" ++ "my $v #1") = .ok .null := by
  have hread : Line.read "get 1 as \"my $v #1\"" 1
      = .ok ⟨"get 1 as \"my $v #1\"", 1, .call ["get", "1"] (some "my $v #1")⟩ := rfl
  have hpoint : '.' ∉ "my $v #1".toList := by decide
  have hname := bound_name_read_iff hread (rfl : _ = some "my $v #1")
  obtain ⟨hclass, hdeclared, hvalue, _⟩ := hname
  refine ⟨(Interpreter.withRegistry .new).register "get" fun _ => .value .null, _, hread, rfl,
    hclass.2 hpoint, rfl, List.mem_singleton_self _, ?_⟩
  exact hvalue _ (hdeclared Id _ _ rfl (List.mem_singleton_self _)) hpoint

/-- A line binds `v.w`, and the next one, which reads it, is refused for lack of `v`. -/
theorem pointed_name_not_read_again :
    let it : Interpreter Id := (Interpreter.withRegistry .new).register "get" fun _ => .value .null
    let line : Line := ⟨"get a as v.w", 1, .call ["get", "a"] (some "v.w")⟩
    Line.read line.raw 1 = .ok line ∧ line.output = some "v.w" ∧
      Token.classify ("$" ++ "v.w") ≠ .variable "v.w" none ∧
      (it.load line.raw).2 = .ok () ∧
      (it.load line.raw).1.vars.isDeclared "v.w" = true ∧
      (it.load line.raw).1.vars.resolve ("$" ++ "v.w") = .error (.undefinedVariable "v") ∧
      (it.load (line.raw ++ "\n" ++ "get $v.w")).2 = .error ⟨2, .undefinedVariable "v"⟩ :=
  ⟨rfl, rfl, by decide, rfl, rfl, rfl, rfl⟩

end KeywordRunner.Script
