import NeuronFleet.Cli

/-
  The fleet program's command line.

  The program runs on the files under the working directory: they are
  read into a tree, `runProgram` runs on the tree, and the directories
  and files it made or changed are written back.  The environment is
  read from the process's environment block, trial and run ids are
  fresh random version-4 ids, reports go to standard output, the error
  to standard error, and the exit code is the program's.
-/

namespace NeuronFleet

namespace Command

/- `n` as `width` lowercase hexadecimal digits. -/
def hexDigits (n width : Nat) : String :=
  String.ofList ((List.range width).reverse.map fun k => Nat.toDigits 16 (n / Nat.pow 16 k % 16) |>.headD '0')

/- A version-4 id from 128 random bits: the version and variant bits
set, in the 8-4-4-4-12 layout. -/
def idOfBits (bits : Nat) : String :=
  let b := (bits &&& (Nat.pow 2 128 - 1 - 0xf000 * Nat.pow 2 64 - 0xc * Nat.pow 2 60)) ||| 0x4000 * Nat.pow 2 64 ||| 0x8 * Nat.pow 2 60
  let h := hexDigits b 32
  let part (i n : Nat) := (h.drop i).take n |>.toString
  part 0 8 ++ "-" ++ part 8 4 ++ "-" ++ part 12 4 ++ "-" ++ part 16 4 ++ "-" ++ part 20 12

/- A fresh random id. -/
def freshId : IO String := do
  let hi ← IO.rand 0 (Nat.pow 2 64 - 1)
  let lo ← IO.rand 0 (Nat.pow 2 64 - 1)
  return idOfBits (hi * Nat.pow 2 64 + lo)

/- The variables of the process's environment block. -/
def environment : IO (List (String × String)) := do
  let block ← try IO.FS.readBinFile "/proc/self/environ" catch _ => pure ByteArray.empty
  let entries := (FileTree.textOf block).splitOn "\x00"
  return entries.filterMap fun e =>
    match e.splitOn "=" with
    | k :: v :: rest => if k.isEmpty then none else some (k, "=".intercalate (v :: rest))
    | _ => none

/- Reads the entries of a directory, at `rel` under the working
directory, into the tree. -/
partial def loadEntries
    (rel : String)
    (entries : Array IO.FS.DirEntry)
    (t : FileTree) :
    IO FileTree :=
  entries.foldlM (fun t e => do
    let path := if rel.isEmpty then e.fileName else rel ++ "/" ++ e.fileName
    if ← e.path.isDir then
      let t := match t.makeDirAll path with
        | .ok t' => t'
        | .error _ => t
      loadEntries path (← e.path.readDir) t
    else
      let bytes ← try IO.FS.readBinFile e.path catch _ => pure ByteArray.empty
      return match t.write path bytes with
        | .ok t' => t'
        | .error _ => t) t

/- Writes back what the run made or changed: new directories, and files
that are new or hold other bytes. -/
def storeChanges (before after : FileTree) : IO Unit := do
  for (ps, node) in after.entries do
    let path := "/".intercalate ps
    match node, before.lookup ps with
    | .dir, some .dir => pure ()
    | .dir, _ => IO.FS.createDirAll path
    | .file b, some (.file a) => if a.data == b.data then pure () else IO.FS.writeBinFile path b
    | .file b, _ =>
      if ps.length > 1 then IO.FS.createDirAll ("/".intercalate ps.dropLast)
      IO.FS.writeBinFile path b

end Command

end NeuronFleet

open NeuronFleet in
/- Runs the fleet program in the working directory. -/
def main (args : List String) : IO UInt32 := do
  IO.setRandSeed (← IO.monoNanosNow)
  let env ← Command.environment
  let runId ← Command.freshId
  let trials ← (List.range 64).mapM fun _ => Command.freshId
  let tag ← IO.rand 1 4194304
  let before ← Command.loadEntries "" (← (← IO.currentDir).readDir) FileTree.empty
  let inv : Invocation := ⟨args, ⟨env, tag, fun i => trials.getD i runId, 1000000000⟩, runId⟩
  let (after, x) := runProgram inv before
  Command.storeChanges before after
  for r in x.reports do
    IO.print r.toLine
  if let some text := x.error then IO.eprintln text
  return UInt32.ofNat (x.code.getD 0)
