/-!
# Trees of files

A tree is a file with its text, or a directory of named trees.  A place in a tree is the list of
names that lead to it, the first one being that in the outermost directory.

The ways in which an operation on files can fail stand here too, with their numbers and wording,
since whatever reads files speaks of them.

`find?_put` says what a tree holds at a place after something was put there.
-/

namespace TileSchema.Workspace

/-- Why an operation on files failed. -/
inductive SystemError where
  /-- A collection of documents in memory lacks the one asked for. -/
  | absent
  | noEntry
  | busy
  | exists_
  | notDirectory
  | isDirectory
  | invalid
  | nameTooLong
  | notEmpty
  /-- A path holds the character that ends one. -/
  | nulInPath
  deriving Repr, DecidableEq

/-- The wording of an error. -/
def SystemError.message : SystemError → String
  | .absent => "entity not found"
  | .noEntry => "No such file or directory (os error 2)"
  | .busy => "Device or resource busy (os error 16)"
  | .exists_ => "File exists (os error 17)"
  | .notDirectory => "Not a directory (os error 20)"
  | .isDirectory => "Is a directory (os error 21)"
  | .invalid => "Invalid argument (os error 22)"
  | .nameTooLong => "File name too long (os error 36)"
  | .notEmpty => "Directory not empty (os error 39)"
  | .nulInPath => "file name contained an unexpected NUL byte"

/-! ### Files and directories -/

/-- A file or a directory. -/
inductive Tree where
  | file (text : String)
  | directory (entries : List (String × Tree))
  deriving Repr, Inhabited

/-! ### Entries of a directory -/

/-- Entries with another tree, or none, under a name. -/
def setEntry (name : String) (t : Option Tree) : List (String × Tree) → List (String × Tree)
  | [] => (t.map fun t => (name, t)).toList
  | (n, u) :: es =>
    if n = name then (t.map fun t => (name, t)).toList ++ es.filter (·.1 ≠ name)
    else (n, u) :: setEntry name t es

theorem lookup_filter_ne (name : String) (es : List (String × Tree)) :
    (es.filter (·.1 ≠ name)).lookup name = none := by
  induction es with
  | nil => rfl
  | cons e es ih =>
    obtain ⟨n, u⟩ := e
    by_cases h : n = name
    · simpa [h] using ih
    · have h' : (name == n) = false := by simpa using fun he : name = n => h he.symm
      simpa [h, List.lookup_cons, h'] using ih

/-- The tree under the name that was set. -/
@[simp] theorem lookup_setEntry (name : String) (t : Option Tree) (es : List (String × Tree)) :
    (setEntry name t es).lookup name = t := by
  induction es with
  | nil => cases t <;> simp [setEntry]
  | cons e es ih =>
    obtain ⟨n, u⟩ := e
    by_cases h : n = name
    · cases t with
      | none => simpa [setEntry, h] using lookup_filter_ne name es
      | some t => simp [setEntry, h]
    · have h' : (name == n) = false := by simpa using fun he : name = n => h he.symm
      simpa [setEntry, h, List.lookup_cons, h'] using ih

namespace Tree

/-- The directory without entries. -/
def empty : Tree := .directory []

/-- Whether a tree is a directory. -/
def isDirectory : Tree → Bool
  | .directory _ => true
  | .file _ => false

/-- The entries of a directory. -/
def entries : Tree → List (String × Tree)
  | .directory es => es
  | .file _ => []

/-- What a tree holds at a place. -/
def find? : Tree → List String → Option Tree
  | t, [] => some t
  | .directory es, n :: ns => (es.lookup n).bind fun t => t.find? ns
  | .file _, _ :: _ => none

/-- A tree with another one, or none, at a place in one of its directories. -/
def put : Tree → List String → Option Tree → Tree
  | t, [], _ => t
  | .file s, _, _ => .file s
  | .directory es, [n], new => .directory (setEntry n new es)
  | .directory es, n :: ns, new =>
    match es.lookup n with
    | some t => .directory (setEntry n (some (t.put ns new)) es)
    | none => .directory es

theorem put_cons (es : List (String × Tree)) (n m : String) (ns : List String) (new : Option Tree) :
    (directory es).put (n :: m :: ns) new =
      match es.lookup n with
      | some t => .directory (setEntry n (some (t.put (m :: ns) new)) es)
      | none => .directory es := rfl

/-- What was put into a directory that is there is found in it. -/
theorem find?_put {t : Tree} {place : List String} {es : List (String × Tree)}
    (h : t.find? place = some (.directory es)) (name : String) (new : Option Tree) :
    (t.put (place ++ [name]) new).find? (place ++ [name]) = new := by
  induction place generalizing t with
  | nil =>
    simp only [find?, Option.some.injEq] at h
    subst h
    cases new <;> simp [put, find?]
  | cons n ns ih =>
    cases t with
    | file s => simp [find?] at h
    | directory inner =>
      simp only [find?, Option.bind_eq_some_iff] at h
      obtain ⟨u, hu, h⟩ := h
      have hc : ∃ m ms, ns ++ [name] = m :: ms := by cases ns <;> simp
      obtain ⟨m, ms, hm⟩ := hc
      have ih := ih h
      rw [hm] at ih
      rw [List.cons_append, hm, put_cons, hu]
      simpa [find?] using ih

mutual

/-- The paths of all that a tree holds, below a path.  That of a directory ends in a slash. -/
def pathsBelow (start : String) : Tree → List String
  | .file _ => []
  | .directory es => entryPaths start es

/-- The paths of entries and of all that they hold. -/
def entryPaths (start : String) : List (String × Tree) → List String
  | [] => []
  | (name, .file _) :: es => (start ++ name) :: entryPaths start es
  | (name, .directory inner) :: es =>
    let path := start ++ name ++ "/"
    path :: (pathsBelow path (.directory inner) ++ entryPaths start es)

end

/-- The paths of all that a tree holds, in the order of their characters. -/
def paths (t : Tree) : List String :=
  (t.pathsBelow "").mergeSort fun a b => a ≤ b

end Tree

end TileSchema.Workspace
