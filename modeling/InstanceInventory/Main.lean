import InstanceInventory.CommandLine.Run
import InstanceInventory.CommandLine.Screen
import Std.Time

/-! # The program

The surroundings are read into a session, the command line is run in it, and what it shows and
changes is carried out. There is no way to other programs and networks from here: Terraform counts
as not installed, and the provider as not reachable.
-/

namespace InstanceInventory.Program
set_option autoImplicit false

/-! ## Reading the surroundings -/

def placeOf (path : String) : Files.Place :=
  (Files.Path.ofText path).parts

/-- Files with the directories on the way to a place. -/
def withAncestors (t : Files.Tree) (place : Files.Place) : Files.Tree :=
  (List.range place.length).foldl (fun t n => t.put (place.take (n + 1)) Files.Tree.newDirectory) t

/-- Files with those of a directory; the directories in it count as empty. -/
def withDirectory (t : Files.Tree) (path : String) : IO Files.Tree := do
  let root ← IO.FS.realPath path
  let mut t := withAncestors t (placeOf root.toString)
  for entry in ← root.readDir do
    let place := placeOf entry.path.toString
    if ← entry.path.isDir then
      if !t.hasDirectory place then t := t.put place Files.Tree.newDirectory
    else t := t.put place (.file (← IO.FS.readBinFile entry.path) Files.Tree.defaultMode)
  return t

/-- Files with those of the directories that words name, or that hold what they name. -/
def withNamed (t : Files.Tree) (words : List String) : IO Files.Tree := do
  let mut t := t
  for word in words do
    for path in [word, (Files.Path.ofText word).parent.text] do
      try t ← withDirectory t path catch _ => pure ()
  return t

/-- The variables that set something. -/
def environment : IO Environment := do
  let names := Settings.fileVariable ::
    Setting.all.map fun s => Settings.variablePrefix ++ s.name.toUpper
  let values ← names.mapM fun name => return (name, ← IO.getEnv name)
  return values.filterMap fun e => e.2.map fun v => (e.1, v)

def now : IO Moment := do
  let t ← Std.Time.PlainDateTime.now
  return ⟨t.year.toInt.toNat, t.month.val.toNat, t.day.val.toNat, t.hour.val.toNat,
    t.minute.val.toNat, t.second.val.toNat⟩

/-- Every command of Terraform, without an executable. -/
def withoutTerraform : Terraform.Script :=
  ⟨[["init"], ["validate"], ["plan"], ["apply"], ["import"], ["state", "list"], ["state", "show"],
    ["state", "rm"]].map fun name => (name, [.missing])⟩

/-- Every operation of the provider, without credentials. -/
def withoutProvider : Cloud.Script :=
  let requests : List Cloud.Request := [.callerIdentity, .images "" "", .instance "", .volume .null,
    .guard "" .stop, .networks, .subnets "", .securityGroups "", .instanceProfiles, .keyPairs,
    .instances]
  ⟨requests.map fun r =>
    ((r.operation, r.isPaged), [{ pages := [], failure := some .noCredentials }])⟩

/-- The session in which a command line is run. -/
def session (words : List String) : IO Session := do
  let directory := (← IO.currentDir).toString
  let home := (← IO.getEnv "HOME").getD "/"
  return {
    files := ← withNamed .empty (directory :: words)
    directory := Files.Path.ofText directory
    home := Files.Path.ofText home
    moment := ← now
    processId := ""
    provider := withoutProvider
    provisioner := withoutTerraform }

/-! ## Carrying out -/

def writeChanges (before after : Files.Tree) : IO Unit := do
  for (place, node) in before.changes after [] do
    let path := ({ slashes := 1, parts := place } : Files.Path).text
    match node with
    | .directory _ => IO.FS.createDirAll path
    | .file bytes _ => IO.FS.writeBinFile path bytes

/-- Runs a command line with the answers given so far, and runs it anew with one more as long as it
ends at a question. The first `seen` items are on the screen already. -/
partial def converse (env : Environment) (words : List String) (start : Session)
    (answers : List Answer) (seen : Nat) : IO UInt32 := do
  let (r, s) := (CommandLine.run env words).outcome { start with answers }
  for item in s.log.drop seen do
    IO.print item.screenText
  (← IO.getStdout).flush
  if s.log.getLast?.any Console.Item.isOpen then
    let line ← (← IO.getStdin).getLine
    if !line.isEmpty then
      let reply := Console.Reply.given (line.dropEndWhile (· == '\n')).toString
      return ← converse env words start (answers ++ [{ reply }]) s.log.length
  writeChanges start.files s.files
  match r with
  | .ok exit => do
    IO.print exit.stdout
    return exit.code.toUInt32
  | .error _ => do
    IO.eprintln "unexpected failure"
    return 1

end InstanceInventory.Program

def main (words : List String) : IO UInt32 := do
  let env ← InstanceInventory.Program.environment
  let start ← InstanceInventory.Program.session (words ++ env.map Prod.snd)
  InstanceInventory.Program.converse env words start [] 0
