import Interlude.Cli.Run
/-!
# The program

Reads the working directory into a tree of files, runs the command line on it, and writes back what
has changed. A `watch` looks at the directory again and again.
-/

namespace Interlude.Main

/-- The files of the working directory. A file that is no text is left out. -/
def readFiles : IO FileTree := do
  let here ← IO.currentDir
  let lead := here.toString.length + 1
  let mut files := FileTree.empty
  for path in ← here.walkDir fun path => return path.fileName != some ".git" do
    if !(← path.isDir) then
      if let .ok text ← (IO.FS.readFile path).toBaseIO then
        files := files.place (String.ofList (path.toString.toList.drop lead)) text
  return files

/-- Makes the working directory follow a change of its tree. -/
def writeFiles (before after : FileTree) : IO Unit := do
  for edit in Watch.Edit.between before after do
    match edit with
    | .write path text => IO.FS.writeFile path text
    | .remove path => IO.FS.removeFile path
    | .rename source target => IO.FS.rename source target

/-- Tells of a failure and gives the exit code. -/
def report : Option Failure → IO UInt32
  | none => return 0
  | some e => do
    IO.eprintln ("Error: " ++ e.text)
    return 1

/-- The time between two looks at the directory, in milliseconds. -/
def pause : UInt32 := 300

/-- Watches for ever. -/
partial def keepWatching (w : Cli.Watching) (files : FileTree) : IO UInt32 := do
  IO.sleep pause
  let now ← readFiles
  let (w, text, after) := w.edit files (Watch.Edit.between files now)
  IO.print text
  writeFiles now after
  keepWatching w after

/-- Starts to watch. -/
def watch (files : FileTree) (g : Cli.Given) : IO UInt32 := do
  let started : Except Failure (Cli.Watching × String × FileTree) := do
    let config ← Cli.loadConfig files g
    Cli.Watching.start { files } config g
  match started with
  | .error e => report (some e)
  | .ok (w, text, after) =>
    IO.print text
    writeFiles files after
    keepWatching w after

/-- Runs any other command. -/
def perform (files : FileTree) (words : List String) : IO UInt32 := do
  let result := Cli.run { files } words
  IO.print result.output
  writeFiles files result.files
  report result.failure

end Interlude.Main

open Interlude in
def main (words : List String) : IO UInt32 := do
  let files ← Main.readFiles
  match Cli.readLine words with
  | .ok (.watch, g) => if g.isOn "help" false then Main.perform files words else Main.watch files g
  | _ => Main.perform files words
