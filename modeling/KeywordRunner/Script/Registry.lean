import KeywordRunner.Script.Keyword

/-!
# Script.Registry — which names a script can call

A registry maps names to keywords and catalogues libraries. A library's keywords are callable only
after an import. Whatever was defined last under a name counts, and a reset leaves the built-in
keywords and the catalogue.
-/

namespace KeywordRunner.Script

/-- The callable keywords and the libraries that can be imported. -/
structure Registry (n : Type → Type) where
  keywords : Table (Keyword n)
  libraries : Table (Library n)

namespace Registry

variable {n : Type → Type}

def builtins [Pure n] : Table (Keyword n) := Table.ofList Keyword.builtins

/-- The registry with the built-in keywords alone. -/
def new [Pure n] : Registry n := ⟨builtins, ∅⟩

instance [Pure n] : Inhabited (Registry n) := ⟨new⟩

def get? (r : Registry n) (name : String) : Option (Keyword n) := r.keywords.get? name

def contains (r : Registry n) (name : String) : Bool := r.keywords.contains name

def hasLibrary (r : Registry n) (name : String) : Bool := r.libraries.contains name

def names (r : Registry n) : List String := r.keywords.keys

def register (r : Registry n) (name : String) (keyword : Keyword n) : Registry n :=
  { r with keywords := r.keywords.insert name keyword }

def addLibrary (r : Registry n) (library : Library n) : Registry n :=
  { r with libraries := r.libraries.insert library.name library }

/-- Makes the keywords of a catalogued library callable; the number of its entries. -/
def importLibrary (r : Registry n) (name : String) : Option (Registry n × Nat) :=
  (r.libraries.get? name).map fun library =>
    ({ r with keywords := r.keywords.insertAll library.keywords }, library.keywords.length)

/-- Back to the built-in keywords; the catalogue stays. -/
def reset [Pure n] (r : Registry n) : Registry n := { r with keywords := builtins }

/-- The registry for a developer's eye. -/
def debugText (r : Registry n) : String :=
  "KeywordRegistry \x7b keywords: " ++ Text.quotedList r.names ++ ", libraries: " ++
    Text.quotedList r.libraries.keys ++ " \x7d"

/-! ### Callable names after each operation -/

@[simp] theorem contains_register (r : Registry n) (name k : String) (keyword : Keyword n) :
    (r.register name keyword).contains k = (k == name || r.contains k) :=
  Table.contains_insert ..

@[simp] theorem contains_addLibrary (r : Registry n) (library : Library n) (k : String) :
    (r.addLibrary library).contains k = r.contains k := rfl

/-- An import makes names callable and takes none away. -/
theorem contains_importLibrary {r r' : Registry n} {name k : String} {count : Nat}
    (h : r.importLibrary name = some (r', count)) (hk : r.contains k = true) :
    r'.contains k = true := by
  obtain ⟨library, _, heq⟩ := Option.map_eq_some_iff.1 h
  cases heq
  exact Table.contains_insertAll library.keywords hk

@[simp] theorem contains_importName_new [Pure n] :
    (new : Registry n).contains Keyword.importName = true := by
  show ((Table.empty.insertAll Keyword.builtins).get? Keyword.importName).isSome = true
  rw [Table.get?_insertAll, Option.isSome_or]
  simp [Keyword.builtins, Keyword.importName, Keyword.checkName, Entries.find?]

@[simp] theorem contains_importName_reset [Pure n] (r : Registry n) :
    r.reset.contains Keyword.importName = true :=
  contains_importName_new

end Registry

end KeywordRunner.Script
