import AmbientTypes.Bundle.Header
import AmbientTypes.Bundle.ModulePath
import AmbientTypes.Text.Pieces

namespace AmbientTypes

def scopedName (name key : String) : String :=
  name ++ "/" ++ key

def tidyKey (key : String) : String :=
  let s := ModulePath.slashed key.toList
  String.ofList <|
    match s with
    | '.' :: '/' :: c :: r => c :: r
    | s => s

structure Renaming where
  entries : List (String × String) := []
  deriving DecidableEq, Repr

namespace Renaming

/-- The public name of a module: under its expose key, else under its own path. -/
def publicName (m : Manifest) (identifier : String) : String :=
  match ModulePath.keyFor? m identifier with
  | some key => scopedName m.name (tidyKey key)
  | none => scopedName m.name identifier

def get? (r : Renaming) (internal : String) : Option String :=
  r.entries.lookup internal

def ofIdentifiers (m : Manifest) (identifiers : List String) : Renaming :=
  ⟨identifiers.foldl (fun entries id ↦
    if entries.any (·.1 = id) then entries else entries ++ [(id, publicName m id)]) []⟩

def longer (best : Option (List Char)) (s : List Char) : Option (List Char) :=
  match best with
  | none => some s
  | some b => if b.length < s.length then some s else some b

def longestFit (identifiers : List String) (mark : Char) (s : List Char) : Option (List Char) :=
  ((identifiers.map String.toList).filter fun id ↦ (id ++ [mark]).isPrefixOf s).foldl longer none

/-- A literal of a mapped identifier at the front of a text; its value is the literal of the
public one. -/
def find (r : Renaming) : Text.Finder (List Char) := fun _ s ↦
  match s with
  | mark :: rest =>
    if mark = '"' ∨ mark = '\'' then do
      let id ← longestFit (r.entries.map (·.1)) mark rest
      let taken := mark :: (id ++ [mark])
      let shown := (r.get? (String.ofList id)).map String.toList
      return ⟨mark :: (shown.getD id ++ [mark]), taken, s.drop taken.length⟩
    else none
  | [] => none

def substituted : Text.Piece (List Char) → List Char
  | .plain c => [c]
  | .found literal _ => literal

def substitute (r : Renaming) (text : String) : String :=
  String.ofList ((Text.pieces r.find text.toList).flatMap substituted)

def largestPattern : Nat := 10 * Nat.pow 2 20

/-- Whether the pattern of the identifiers can be built; `size` is what such a pattern takes. None
is built where nothing is renamed. -/
def isBuildable (r : Renaming) (size : List String → Nat) : Bool :=
  r.entries.isEmpty || size (r.entries.map (·.1)) ≤ largestPattern

def applied? (r : Renaming) (size : List String → Nat) (text : String) : Option String :=
  if r.isBuildable size then some (r.substitute text) else none

end Renaming

structure PublicBundle where
  text : String
  names : Renaming

def PublicBundle.ofBundle (m : Manifest) (bundle : String) : PublicBundle :=
  let r := Renaming.ofIdentifiers m (Header.distinct (Header.scan bundle))
  ⟨r.substitute bundle, r⟩

end AmbientTypes
