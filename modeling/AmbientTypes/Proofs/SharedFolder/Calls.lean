import AmbientTypes.SharedFolder.Basic
import Mathlib.Logic.Function.Basic

namespace AmbientTypes.SharedFolder

/-- How far a call has come. -/
inductive Stage
  | start
  | checked (existed : Bool)
  | opened (existed : Bool) (index : Location)
  | locked (existed : Bool) (index : Location)
  | read (existed : Bool) (index : Location) (contents? : Option String)
  | leaving (index : Location) (result : Except Failure IndexChange)
  | finished (result : Except Failure IndexChange)

/-- The files, who holds the lock of a file, and how far each call has come. -/
structure Calls (ι : Type) where
  files : Files
  holder : Location → Option ι
  stage : ι → Stage

namespace Calls

variable {ι : Type}

def start (f : Files) : Calls ι :=
  ⟨f, fun _ ↦ none, fun _ ↦ .start⟩

variable [DecidableEq ι]

def move (c : Calls ι) (i : ι) (stage : Stage) : Calls ι :=
  { c with stage := Function.update c.stage i stage }

def setFiles (c : Calls ι) (f : Files) : Calls ι :=
  { c with files := f }

def setHolder (c : Calls ι) (index : Location) (holder : Option ι) : Calls ι :=
  { c with holder := Function.update c.holder index holder }

/-- One call takes a step. It waits while another one holds the lock. -/
inductive Step (dir : String) (name : ι → String) (c : Calls ι) : Calls ι → Prop
  | checks {i : ι} (hi : c.stage i = .start) :
      Step dir name c (c.move i (.checked (c.files.pathExists (Path.join dir indexName))))
  | opens {i : ι} {existed : Bool} {l : Location} {bytes : ByteArray} {f : Files}
      (hi : c.stage i = .checked existed)
      (h : c.files.openOrCreate (Path.join dir indexName) = .ok (l, bytes, f)) :
      Step dir name c ((c.setFiles f).move i (.opened existed l))
  | fails {i : ι} {existed : Bool} {e : SysError} (hi : c.stage i = .checked existed)
      (h : c.files.openOrCreate (Path.join dir indexName) = .error e) :
      Step dir name c
        (c.move i (.finished (.error (.openingIndex (Path.join dir indexName) e))))
  | locks {i : ι} {existed : Bool} {l : Location} (hi : c.stage i = .opened existed l)
      (h : c.holder l = none) :
      Step dir name c ((c.setHolder l (some i)).move i (.locked existed l))
  | reads {i : ι} {existed : Bool} {l : Location} {k : File} (hi : c.stage i = .locked existed l)
      (h : c.files.tree.get? l = some (.file k)) :
      Step dir name c (c.move i (.read existed l (Text.ofUtf8? k.bytes)))
  | refuses {i : ι} {existed : Bool} {l : Location} (hi : c.stage i = .read existed l none) :
      Step dir name c
        (c.move i (.leaving l (.error (.readingFile (Path.join dir indexName) .invalidText))))
  | skips {i : ι} {existed : Bool} {l : Location} {contents : String}
      (hi : c.stage i = .read existed l (some contents))
      (h : indexAddition? contents (name i) = none) :
      Step dir name c (c.move i (.leaving l (.ok .unchanged)))
  | appends {i : ι} {existed : Bool} {l : Location} {contents addition : String} {k : File}
      (hi : c.stage i = .read existed l (some contents))
      (h : indexAddition? contents (name i) = some addition)
      (hk : c.files.tree.get? l = some (.file k)) :
      Step dir name c ((c.setFiles (c.files.putBytes l (k.bytes ++ addition.toUTF8))).move i
        (.leaving l (.ok (if existed then .appended else .created))))
  | releases {i : ι} {l : Location} {r : Except Failure IndexChange}
      (hi : c.stage i = .leaving l r) :
      Step dir name c ((c.setHolder l none).move i (.finished r))

/-- Steps of any calls, in any order. -/
inductive Run (dir : String) (name : ι → String) (c : Calls ι) : Calls ι → Prop
  | refl : Run dir name c c
  | step {c' c'' : Calls ι} (h : Run dir name c c') (hs : Step dir name c' c'') :
      Run dir name c c''

end Calls

end AmbientTypes.SharedFolder
