import AmbientTypes.Execution.Basic
import AmbientTypes.Json.Reader
import AmbientTypes.World

namespace AmbientTypes.Snapshot

inductive Entry
  | folder
  | link (target : String)
  | file (f : File)

def member (j : Json) (key : String) : Option Json :=
  (j.get? key).filter fun v ↦
    match v with
    | .null => false
    | _ => true

def text? (j : Json) (key : String) : Option String :=
  match member j key with
  | some (.string s) => some s
  | _ => none

def flag (j : Json) (key : String) : Bool :=
  match member j key with
  | some (.bool b) => b
  | _ => false

def natural? (j : Json) (key : String) : Option Nat :=
  match member j key with
  | some (.number (.integer n)) => some n.toNat
  | _ => none

def unhexChars : List Char → List UInt8
  | a :: b :: r =>
    UInt8.ofNat ((Text.hexValue? a).getD 0 * 16 + (Text.hexValue? b).getD 0) :: unhexChars r
  | _ => []

def unhex (s : String) : ByteArray :=
  ⟨(unhexChars s.toList).toArray⟩

def hex (b : ByteArray) : String :=
  String.ofList (b.toList.flatMap fun x ↦
    [Text.hexDigit (x.toNat / 16), Text.hexDigit (x.toNat % 16)])

def bytes? (j : Json) (key : String) (hexKey : String) : Option ByteArray :=
  match text? j key with
  | some s => some s.toUTF8
  | none => (text? j hexKey).map unhex

def entryOf (j : Json) : Entry :=
  if flag j "dir" then .folder
  else
    match text? j "link" with
    | some target => .link target
    | none => .file { bytes := (bytes? j "text" "hex").getD .empty }

def toolOf (j : Json) : Entry :=
  let program : Program := .tool (bytes? j "emit" "emit_hex")
    ((bytes? j "stdout" "stdout_hex").getD .empty) ((bytes? j "stderr" "stderr_hex").getD .empty)
    ((natural? j "exit").getD 0)
  .file { bytes := .empty, program := some program }

def complete (r : Except SysError Unit × Files) : Except SysError Files :=
  match r with
  | (.ok (), f) => .ok f
  | (.error e, _) => .error e

def Entry.put (path : String) (f : Files) (entry : Entry) : Except SysError Files := do
  let f ← match Path.parent? path with
    | some p => complete (f.makeAllFolders p)
    | none => pure f
  match entry with
  | folder => complete (f.makeAllFolders path)
  | link target => f.makeLink path target
  | file g =>
    let (l, _, f) ← f.openOrCreate path
    return f.put l (.file g)

def putAll (read : Json → Entry) (js : List Json) (f : Files) : Files :=
  js.foldl
    (fun f j ↦
      match (read j).put ((text? j "path").getD "") f with
      | .ok g => g
      | .error _ => f)
    f

def systemTree : Tree :=
  let program (p : Program) : Tree := .file ⟨.empty, some p⟩
  .folder [
    ("usr", .folder [("bin", .folder [("sh", program .shell), ("cat", program .cat),
      ("true", program .succeed), ("false", program .fail)])]),
    ("bin", .link "usr/bin")]

def items (j : Json) (key : String) : List Json :=
  match member j key with
  | some (.array js) => js
  | _ => []

/-- A world with a current directory, which entries and tools are put into. -/
def world (cwd : String) (environment : List (String × String)) (j : Json) : World :=
  let f : Files := { tree := systemTree }
  let f := (f.makeAllFolders cwd).2
  let f := { f with cwd := ((f.lookup cwd).toOption.map (·.1)).getD [] }
  { files := putAll toolOf (items j "tools") (putAll entryOf (items j "entries") f)
    environment := environment }

def listing (above : String) : Tree → List (String × Tree)
  | .folder entries => members above entries
  | _ => []
where
  members (above : String) : List (String × Tree) → List (String × Tree)
    | [] => []
    | (name, t) :: rest =>
      let path := if above = "" then name else above ++ "/" ++ name
      (path, t) :: (listing path t ++ members above rest)

end AmbientTypes.Snapshot
