import AmbientTypes.Report.Remark
import AmbientTypes.Text.Quoted

namespace AmbientTypes

inductive ManifestProblem
  | notFound (root name : String)
  | ambiguous (count : Nat) (paths : List String)
  | givenMissing (path : String)
  | malformed (path reason : String)
  | sourceMissing (key path : String)
  deriving DecidableEq, Repr

namespace ManifestProblem

def message : ManifestProblem → String
  | notFound root name =>
    "could not find `" ++ name ++ "` in `" ++ root ++ "` or any subdirectory"
  | ambiguous count _ =>
    "found " ++ Text.decimal count ++ " federation manifests, expected exactly one"
  | givenMissing path => "manifest `" ++ path ++ "` does not exist"
  | malformed path reason => "invalid manifest `" ++ path ++ "`: " ++ reason
  | sourceMissing key path => "exposed module `" ++ key ++ "` points to a missing file: " ++ path

def code : ManifestProblem → String
  | notFound .. => "fedtypes::manifest::not_found"
  | ambiguous .. => "fedtypes::manifest::ambiguous"
  | givenMissing .. => "fedtypes::manifest::explicit_missing"
  | malformed .. => "fedtypes::manifest::invalid"
  | sourceMissing .. => "fedtypes::manifest::missing_source"

def help? : ManifestProblem → Option String
  | notFound .. =>
    some "pass `--config <path>` or add a federation.config.json to the package"
  | ambiguous .. =>
    some "pass `--config <path>` to choose one, or use `--discovery first-match`"
  | sourceMissing .. =>
    some "paths in `exposes` are resolved relative to the manifest's directory"
  | givenMissing .. | malformed .. => none

def seeManifests : String :=
  "Run `fedtypes locate --all` from the package root to see which manifests are visible"

def advice (e : ManifestProblem) : List String :=
  (match e with
    | notFound .. => [seeManifests]
    | _ => []) ++ e.help?.toList

def details : ManifestProblem → List String
  | ambiguous _ paths => paths.map ("candidate: " ++ ·)
  | _ => []

def place? : ManifestProblem → Option String
  | givenMissing path | malformed path _ | sourceMissing _ path => some path
  | notFound .. | ambiguous .. => none

def remark (e : ManifestProblem) : Remark where
  severity := .error
  text := e.message
  details := e.details
  advice := e.advice
  place := e.place?

end ManifestProblem

end AmbientTypes
