import NeuronFleet.Text.Blank

/-
  A tree of files and directories, and the operations a program runs on
  it, with the errors the system gives.

  A path is read as the components the system resolves it to: split on
  `/`, empty components and `.` dropped, and each `..` taking off the
  component before it, so `data//x/./y`, `data/x/y` and `data/z/../x/y`
  name the same entry (a `..` with nothing before it stays).  The empty
  path is the root, always a directory.  An operation first walks the
  path's ancestors from the root: the first missing one fails with
  `No such file or directory`, the first file with `Not a directory`.

  Creating a whole directory path creates the missing ancestors first,
  and accepts a directory that is there already.

  Main definitions:
    * `pathParts`, `FileTree.Node`, `IoFailure`, `FileTree`
    * `FileTree.makeDir`, `FileTree.makeDirAll`, `FileTree.write`,
      `FileTree.read`, `FileTree.move`, `FileTree.ofListing`, `FileTree.files`
-/

namespace NeuronFleet

/- A failure of a file operation, as the system reports it. -/
inductive IoFailure where
  | notFound
  | alreadyExists
  | notDirectory
  | isDirectory
  deriving Repr, DecidableEq

/- The system's text of a failure. -/
def IoFailure.message : IoFailure → String
  | .notFound => "No such file or directory (os error 2)"
  | .alreadyExists => "File exists (os error 17)"
  | .notDirectory => "Not a directory (os error 20)"
  | .isDirectory => "Is a directory (os error 21)"

/- The components a path is written with, without empty or `.` components. -/
def splitParts (p : String) : List String := (Text.pieces '/' p).filter fun c => c != "" && c != "."

/- One more component of a path being resolved, whose components so far
are `acc`, last first: `..` takes off the component before it, unless
there is none or it is a `..` itself. -/
def stepPart
    (acc : List String)
    (c : String) :
    List String :=
  if c = ".." then
    match acc with
    | d :: rest => if d = ".." then c :: acc else rest
    | [] => [c]
  else c :: acc

/- The components of a path as the system resolves it where the
directories on the way exist. -/
def pathParts (p : String) : List String := ((splitParts p).foldl stepPart []).reverse

/- What a path of a tree holds. -/
inductive FileTree.Node where
  | file (bytes : ByteArray)
  | dir

/- Files and directories, each by the components of its path; the
root is left out. -/
structure FileTree where
  entries : List (List String × FileTree.Node)

namespace FileTree

/- The tree with nothing but its root. -/
def empty : FileTree := ⟨[]⟩

/- What the path of these components holds. -/
def lookup
    (t : FileTree)
    (ps : List String) :
    Option Node :=
  if ps.isEmpty then some .dir else (t.entries.find? (·.1 == ps)).map (·.2)

/- What a path holds. -/
def get
    (t : FileTree)
    (p : String) :
    Option Node := t.lookup (pathParts p)

/- Whether a path is a directory. -/
def isDir
    (t : FileTree)
    (p : String) :
    Bool :=
  match t.get p with
  | some .dir => true
  | _ => false

/- Whether a path holds anything; the empty path names nothing. -/
def present
    (t : FileTree)
    (p : String) :
    Bool := !p.isEmpty && (t.get p).isSome

/- Checks the ancestors of a path from the root. -/
def walk
    (t : FileTree)
    (ps : List String) :
    Except IoFailure Unit :=
  (List.range (ps.length - 1)).forM fun k =>
    match t.lookup (ps.take (k + 1)) with
    | some .dir => .ok ()
    | some (.file _) => .error .notDirectory
    | none => .error .notFound

/- Puts a node at a path, replacing what was there. -/
def put
    (t : FileTree)
    (ps : List String)
    (n : Node) :
    FileTree :=
  ⟨t.entries.filter (·.1 != ps) ++ [(ps, n)]⟩

/- Creates one directory; its parent must be a directory and the path
free. -/
def makeDir
    (t : FileTree)
    (ps : List String) :
    Except IoFailure FileTree := do
  t.walk ps
  if (t.lookup ps).isSome then throw .alreadyExists
  return t.put ps .dir

/- Creates a directory and its missing ancestors; a directory already
there is fine. -/
def makeDirAllParts
    (t : FileTree)
    (ps : List String) :
    Except IoFailure FileTree :=
  if ps.isEmpty then .ok t
  else
    let settled (t : FileTree) : Except IoFailure FileTree → Except IoFailure FileTree
      | .ok t' => .ok t'
      | .error e => if t.lookup ps matches some .dir then .ok t else .error e
    match t.makeDir ps with
    | .ok t' => .ok t'
    | .error .notFound =>
      match makeDirAllParts t ps.dropLast with
      | .ok t' => settled t' (t'.makeDir ps)
      | .error e => .error e
    | .error e => settled t (.error e)
termination_by ps.length
decreasing_by
  simp only [List.length_dropLast]
  have : ps.length ≠ 0 := by simpa [List.isEmpty_iff] using ‹¬ps.isEmpty = true›
  omega

/- Creates a directory path and its missing ancestors. -/
def makeDirAll
    (t : FileTree)
    (p : String) :
    Except IoFailure FileTree :=
  t.makeDirAllParts (pathParts p)

/- Writes a file, replacing one that is there. -/
def write
    (t : FileTree)
    (p : String)
    (bytes : ByteArray) :
    Except IoFailure FileTree := do
  let ps := pathParts p
  t.walk ps
  match t.lookup ps with
  | some .dir => throw .isDirectory
  | _ => return t.put ps (.file bytes)

/- Reads a file. -/
def read
    (t : FileTree)
    (p : String) :
    Except IoFailure ByteArray := do
  let ps := pathParts p
  t.walk ps
  match t.lookup ps with
  | some (.file b) => return b
  | some .dir => throw .isDirectory
  | none => throw .notFound

/- Moves a file to another path, replacing a file there. -/
def move
    (t : FileTree)
    (source target : String) :
    Except IoFailure FileTree := do
  let bytes ← t.read source
  let ps := pathParts target
  t.walk ps
  match t.lookup ps with
  | some .dir => throw .isDirectory
  | _ => return ⟨(t.entries.filter (·.1 != pathParts source)).filter (·.1 != ps) ++ [(ps, .file bytes)]⟩

/- A tree of the given directories and the given files with their
texts, each made with its missing ancestors; an entry that cannot be
made is left out. -/
def ofListing
    (dirs : List String)
    (files : List (String × String)) :
    FileTree :=
  let settle (t : FileTree) (r : Except IoFailure FileTree) : FileTree :=
    match r with
    | .ok t' => t'
    | .error _ => t
  let t := dirs.foldl (fun t d => settle t (t.makeDirAll d)) empty
  files.foldl (fun t (p, text) =>
    let t := settle t (t.makeDirAllParts (pathParts p).dropLast)
    settle t (t.write p text.toUTF8)) t

/- The paths of all files, `/`-separated, in order. -/
def files (t : FileTree) : List String :=
  (t.entries.filterMap fun
    | (ps, .file _) => some ("/".intercalate ps)
    | _ => none).mergeSort fun a b => decide (a ≤ b)

end FileTree

end NeuronFleet
