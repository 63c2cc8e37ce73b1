import CupidOs.NodeTree.Core
import Mathlib.Data.List.Induction

/-!
# Paths as lists of components

`lookup`, `mkdirs` and the extraction of the last name parse a path with separate loops. All of
them see the non-empty pieces between slashes, and the byte loops become recursions over that
list.
-/

namespace CupidOs.NodeTree

open List CupidOs.Lists Vfs

/-- The components of a path. -/
def components (path : List UInt8) : List (List UInt8) := tokens slash path

/-- Walk down the components of a path from `current`. -/
def resolve (tree : Tree) : Nat → List (List UInt8) → Option Nat
  | current, [] => some current
  | current, name :: names =>
    if tree.typeOf current = some .dir then
      match findChild tree current name with
      | none => none
      | some child => resolve tree child names
    else none

/-- What is left after descending into the given directories, creating those
that are missing. -/
structure Descent where
  tree : Tree
  budget : Nat
  result : Option Nat

/-- Descend from `current` into the named directories, creating those that are
missing. -/
def descend : Tree → Nat → Nat → List (List UInt8) → Descent
  | tree, budget, current, [] => ⟨tree, budget, some current⟩
  | tree, budget, current, name :: names =>
    match findChild tree current name with
    | some child => descend tree budget child names
    | none =>
      match budget with
      | 0 => ⟨tree, 0, none⟩
      | budget + 1 =>
        descend (tree.attach current (allocNode (storedName name) .dir)) budget tree.nextId names

/-- Create a node called `last` below the directories `dirs`. -/
def createIn (tree : Tree) (dirs : List (List UInt8)) (last : List UInt8) (type : NodeType)
    (budget : Nat) : Creation :=
  match descend tree budget rootId dirs with
  | ⟨tree, budget, none⟩ => ⟨tree, budget, .error .einval⟩
  | ⟨tree, 0, some _⟩ => ⟨tree, 0, .error .enospc⟩
  | ⟨tree, budget + 1, some parent⟩ =>
    ⟨tree.attach parent (allocNode (storedName last) type), budget, .ok tree.nextId⟩

/-- A name that a path can spell as one component. -/
def IsComponent (name : List UInt8) : Prop := name ≠ [] ∧ slash ∉ name ∧ 0 ∉ name

/-- The path that spells the given components. -/
def spell (names : List (List UInt8)) : List UInt8 := names.flatMap fun name => slash :: name

lemma components_append_slash (path rest : List UInt8) :
    components (path ++ slash :: rest) = components path ++ components rest :=
  tokens_append_separator_cons path rest

lemma components_of_isComponent {name : List UInt8} (isComponent : IsComponent name) :
    components name = [name] :=
  tokens_of_free isComponent.1 isComponent.2.1

lemma components_spell {names : List (List UInt8)}
    (are : ∀ name ∈ names, IsComponent name) : components (spell names) = names := by
  induction names using reverseRecOn with
  | nil => rfl
  | append_singleton names name ih =>
    have spelled : spell (names ++ [name]) = spell names ++ slash :: name := by
      simp [spell]
    rw [spelled, components_append_slash, ih fun other member => are other (by simp [member]),
      components_of_isComponent (are name (by simp))]

lemma zero_not_mem_spell {names : List (List UInt8)}
    (are : ∀ name ∈ names, IsComponent name) : 0 ∉ spell names := by
  simp only [spell, mem_flatMap, mem_cons, not_exists, not_and, not_or]
  exact fun name member => ⟨by decide, (are name member).2.2⟩

variable {path last : List UInt8} {dirs : List (List UInt8)}

lemma isComponent_of_mem_components {name : List UInt8} (noNul : 0 ∉ path)
    (member : name ∈ components path) : IsComponent name :=
  ⟨ne_nil_of_mem_tokens member, separator_not_mem_of_mem_tokens member,
    fun nul => noNul (subset_of_mem_tokens member nul)⟩

lemma components_skipSlashes (path : List UInt8) :
    components (skipSlashes path) = components path :=
  tokens_dropWhile path

lemma components_cases (path : List UInt8) : (skipSlashes path = [] ∧ components path = []) ∨
      ∃ byte rest, skipSlashes path = byte :: rest ∧ byte ≠ slash ∧ components path =
          component (byte :: rest) :: components (afterComponent (byte :: rest)) := by
  rw [← components_skipSlashes path]
  cases skipped : skipSlashes path with
  | nil => exact Or.inl ⟨rfl, rfl⟩
  | cons byte rest =>
    have notSlash : byte ≠ slash := by
      have stopped := head_dropWhile_not (· == slash) (l := path)
        (by simp only [skipSlashes] at skipped; simp [skipped])
      simp only [skipSlashes] at skipped
      simpa [skipped] using stopped
    exact Or.inr ⟨byte, rest, rfl, notSlash, tokens_cons_of_ne rest notSlash⟩

@[simp]
lemma skipSlashes_skipSlashes (path : List UInt8) :
    skipSlashes (skipSlashes path) = skipSlashes path := by
  rcases components_cases path with ⟨skipped, _⟩ | ⟨byte, rest, skipped, notSlash, _⟩
  · rw [skipped]
    rfl
  · rw [skipped]
    simp [skipSlashes, notSlash]

lemma skipSlashes_length_le (path : List UInt8) : (skipSlashes path).length ≤ path.length :=
  (dropWhile_sublist _).length_le

/-- The pointer behind a component is further in the path. -/
theorem afterComponent_length_lt {byte : UInt8} (rest : List UInt8) (notSlash : byte ≠ slash) :
    (afterComponent (byte :: rest)).length < (byte :: rest).length :=
  dropWhile_length_lt rest notSlash

variable (tree : Tree)

lemma lookupLoop_eq_resolve {fuel : Nat} (current : Nat) (enough : path.length ≤ fuel) :
    lookupLoop tree fuel current path = resolve tree current (components path) := by
  induction fuel generalizing current path with
  | zero =>
    have empty : path = [] := length_eq_zero_iff.mp (by omega)
    subst empty
    rfl
  | succ fuel ih =>
    rcases components_cases path with ⟨skipped, parsed⟩ | ⟨byte, rest, skipped, notSlash, parsed⟩
    · simp only [lookupLoop, skipped, parsed, resolve]
    have skippedShort := skipSlashes_length_le path
    have shorter := afterComponent_length_lt rest notSlash
    rw [skipped] at skippedShort
    have restEq := fun child =>
      ih child (show (afterComponent (byte :: rest)).length ≤ fuel by omega)
    cases found : findChild tree current (component (byte :: rest)) with
    | none => simp only [lookupLoop, skipped, parsed, resolve, found]
    | some child => simp only [lookupLoop, skipped, parsed, resolve, found, restEq]

lemma lookup_eq_resolve (path : List UInt8) :
    lookup tree path = resolve tree rootId (components path) :=
  lookupLoop_eq_resolve tree rootId le_rfl

variable (budget : Nat)

/-- `mkdirs` descends into all components but the last and leaves the pointer there. -/
theorem mkdirsLoop_eq_descend {fuel : Nat} (current : Nat) (atComponent : skipSlashes path = path)
    (enough : path.length ≤ fuel) (parsed : components path = dirs ++ [last]) :
    ∃ byte rest, component (byte :: rest) = last ∧ mkdirsLoop fuel tree budget current path =
        ⟨(descend tree budget current dirs).tree, (descend tree budget current dirs).budget,
          (descend tree budget current dirs).result.map (·, byte :: rest)⟩ := by
  induction fuel generalizing tree budget current path dirs with
  | zero =>
    have empty : path = [] := length_eq_zero_iff.mp (by omega)
    subst empty
    simp [components] at parsed
  | succ fuel ih =>
    rcases components_cases path with ⟨_, noComponents⟩ | ⟨byte, rest, skipped, notSlash, firstComponent⟩
    · simp [noComponents] at parsed
    rw [atComponent] at skipped
    subst skipped
    have shorter := afterComponent_length_lt rest notSlash
    have nextShort := skipSlashes_length_le (afterComponent (byte :: rest))
    rw [firstComponent, ← components_skipSlashes (afterComponent (byte :: rest))] at parsed
    cases dirs with
    | nil =>
      simp only [nil_append, cons.injEq] at parsed
      rcases components_cases (skipSlashes (afterComponent (byte :: rest))) with
        ⟨ended, _⟩ | ⟨_, _, _, _, more⟩
      · rw [skipSlashes_skipSlashes] at ended
        refine ⟨byte, rest, parsed.1, ?_⟩
        simp only [mkdirsLoop, descend, ended, Option.map_some, if_true, reduceCtorEq, if_false]
      · rw [more] at parsed
        cases parsed.2
    | cons dir dirs =>
      simp only [cons_append, cons.injEq] at parsed
      have notEnded : skipSlashes (afterComponent (byte :: rest)) ≠ [] := by
        intro ended
        rw [ended] at parsed
        simp [components] at parsed
      have stays := skipSlashes_skipSlashes (afterComponent (byte :: rest))
      simp only [mkdirsLoop, if_neg notEnded, descend, parsed.1, reduceCtorEq, if_false]
      cases findChild tree current dir with
      | some child => exact ih tree budget child stays (by omega) parsed.2
      | none =>
        cases budget with
        | zero =>
          rcases ih tree 0 current stays (by omega) parsed.2 with ⟨byte, rest, named, _⟩
          exact ⟨byte, rest, named, rfl⟩
        | succ budget =>
          exact ih (tree.attach current (allocNode (storedName dir) .dir)) budget
            tree.nextId stays (by omega) parsed.2

/-- `mkdirs` has nothing to do for a path without components. -/
theorem mkdirs_of_no_components (parsed : components path = []) :
    mkdirs tree path budget = ⟨tree, budget, some (rootId, [])⟩ := by
  rcases components_cases path with ⟨skipped, _⟩ | ⟨byte, rest, _, _, firstComponent⟩
  · rw [mkdirs, skipped]
    cases path.length <;> simp [mkdirsLoop]
  · rw [firstComponent] at parsed
    cases parsed

/-- `open` and `mkdir` create nothing for a path without components. -/
theorem create_of_no_components (type : NodeType) (budget : Nat) (parsed : components path = []) :
    create tree path type budget = ⟨tree, budget, .error .einval⟩ := by
  simp only [create, mkdirs_of_no_components tree budget parsed]

lemma mkdirs_eq_descend (parsed : components path = dirs ++ [last]) :
    ∃ byte rest, component (byte :: rest) = last ∧ mkdirs tree path budget =
        ⟨(descend tree budget rootId dirs).tree, (descend tree budget rootId dirs).budget,
          (descend tree budget rootId dirs).result.map (·, byte :: rest)⟩ :=
  mkdirsLoop_eq_descend tree budget rootId (skipSlashes_skipSlashes path)
    (skipSlashes_length_le path) (by rw [components_skipSlashes, parsed])

/-- A node is created by its last component below the directories named by the others. -/
theorem create_eq_createIn (type : NodeType) (budget : Nat)
    (parsed : components path = dirs ++ [last]) :
    create tree path type budget = createIn tree dirs last type budget := by
  rcases mkdirs_eq_descend tree budget parsed with ⟨byte, rest, rfl, made⟩
  simp only [create, made, createIn, leafName]
  rcases descend tree budget rootId dirs with ⟨made, left, _ | parent⟩
  · rfl
  · cases left <;> rfl

end CupidOs.NodeTree
