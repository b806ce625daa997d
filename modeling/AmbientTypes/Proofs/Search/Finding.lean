import AmbientTypes.Proofs.Pipeline.Notices
import AmbientTypes.Proofs.Pipeline.Run

namespace AmbientTypes

open AmbientTypes.Action

def ManifestProblem.IsMalformed : ManifestProblem → Prop
  | .malformed .. => True
  | _ => False

theorem Manifest.isMalformed_of_parse {text path : String} {e : ManifestProblem}
    (h : parse text path = .error e) : e.IsMalformed := by
  unfold parse at h
  split at h
  · rw [← Except.error.inj h]
    trivial
  · split at h
    · rw [← Except.error.inj h]
      trivial
    · cases h

/-- A file may be no manifest; there is no other way to fail. -/
theorem Manifest.load_fails (path : String) :
    FailsOnly (fun e ↦ ∃ problem : ManifestProblem, problem.IsMalformed ∧ e = .manifest problem)
      (load path) := by
  refine FailsOnly.bind (.inspect (fun e ↦ ⟨unreadable path e, trivial, rfl⟩) _) fun text ↦ ?_
  split
  · exact .pure _
  · next e hparse => exact .throw ⟨e, isMalformed_of_parse hparse, rfl⟩

namespace Plan

variable {p : Plan} {f : Files} {w : World} {found : List String}
  {r r' : Except ManifestProblem String}

/-- What a plan finds where the search of its tree, carried to the end, gives `found`. -/
inductive Finds (p : Plan) (f : Files) (found : List String) : Except ManifestProblem String → Prop
  | given {path : String} (hchoice : p.choice = .given path) (hfile : f.isFile path = true) :
    Finds p f found (.ok path)
  | missing {path : String} (hchoice : p.choice = .given path) (hfile : f.isFile path = false) :
    Finds p f found (.error (.givenMissing path))
  | nothing {c : SearchChoice} (hchoice : p.choice = .searched c) (hfound : found = []) :
    Finds p f found (.error (.notFound p.root p.search.fileName))
  | head {path : String} {rest : List String} (hchoice : p.choice = .searched .firstMatch)
      (hfound : found = path :: rest) : Finds p f found (.ok path)
  | only {path : String} (hchoice : p.choice = .searched .unique) (hfound : found = [path]) :
    Finds p f found (.ok path)
  | several (hchoice : p.choice = .searched .unique) (hfound : 2 ≤ found.length) :
    Finds p f found (.error (.ambiguous found.length found))

theorem Finds.unique (h : p.Finds f found r) (h' : p.Finds f found r') : r = r' := by
  cases h <;> cases h' <;> grind

/-- The listings and the pipeline come to the result `r`. What else the pipeline can say is that
the file found is no manifest. -/
structure ComesTo (p : Plan) (w : World) (r : Except ManifestProblem String) : Prop where
  chosen : ((p.manifestPaths .chosen).run w).1 = (r.map ([·])).mapError .manifest
  given : ∀ path, p.choice = .given path →
    ((p.manifestPaths .all).run w).1 = (r.map ([·])).mapError .manifest
  loads : (p.manifest.run w).1 =
    r.mapError .manifest >>= fun path ↦ ((Manifest.load path).run w).1
  path : ∀ m, (p.manifest.run w).1 = .ok m → r = .ok m.path
  problem : ∀ e : ManifestProblem, ¬ e.IsMalformed →
    ((p.manifest.run w).1 = .error (.manifest e) ↔ r = .error e)

/-- The search of the tree, carried to the end, has a result whatever the plan chooses. -/
theorem manifestPaths_all (p : Plan) (w : World) :
    ∃ found, ((p.search.all p.root).run w).1 = .ok found ∧
      ∀ c, (({ p with choice := .searched c }.manifestPaths .all).run w).1 = .ok found := by
  have hall : FailsOnly (fun _ ↦ False) (p.search.all p.root) := by
    refine FailsOnly.files.bind fun f ↦ ?_
    split
    · exact .pure _
    · exact (FailsOnly.log _ _).bind fun _ ↦ .pure _
  obtain ⟨found, hfound⟩ := hall.eq_ok w
  exact ⟨found, hfound, fun _ ↦ hfound⟩

theorem finds_chosen (hall : ((p.search.all p.root).run w).1 = .ok found) :
    ∃ r, p.Finds w.files found r ∧
      ((p.search.chosen p.root p.choice).run w).1 = r.mapError .manifest := by
  obtain ⟨v, hrun⟩ : ∃ v, (p.search.all p.root).run w = (.ok found, v) :=
    ⟨_, run_eq_of_fst hall⟩
  cases hchoice : p.choice with
  | given path =>
    cases hfile : w.files.isFile path with
    | true =>
      refine ⟨_, .given hchoice hfile, ?_⟩
      simp [Search.chosen, run_bind, hfile, Except.mapError]
    | false =>
      refine ⟨_, .missing hchoice hfile, ?_⟩
      simp [Search.chosen, run_bind, hfile, Except.mapError]
  | searched c =>
    match c, found with
    | c, [] =>
      refine ⟨_, .nothing hchoice rfl, ?_⟩
      cases c <;> simp [Search.chosen, Search.first, Search.single, run_bind, hrun,
        Search.nothingFound, Except.mapError]
    | .firstMatch, path :: rest =>
      refine ⟨_, .head hchoice rfl, ?_⟩
      simp [Search.chosen, Search.first, run_bind, hrun, Except.mapError]
    | .unique, [path] =>
      refine ⟨_, .only hchoice rfl, ?_⟩
      simp [Search.chosen, Search.single, run_bind, hrun, Except.mapError]
    | .unique, a :: b :: rest =>
      refine ⟨_, .several hchoice (by simp), ?_⟩
      simp [Search.chosen, Search.single, run_bind, hrun, Except.mapError]

theorem fst_run_manifestPath
    (h : ((p.search.chosen p.root p.choice).run w).1 = r.mapError .manifest) :
    (p.manifestPath.run w).1 = r.mapError .manifest := by
  have hlog (path : String) : Reads (do
      log .debug ("located manifest " ++ path)
      return path) := (Reads.log _ _).bind fun _ ↦ .pure path
  rw [manifestPath, Search.find, (p.search.reads_chosen p.root p.choice).fst_bind hlog, h]
  cases r <;> rfl

theorem fst_run_manifest
    (h : ((p.search.chosen p.root p.choice).run w).1 = r.mapError .manifest) :
    (p.manifest.run w).1 = r.mapError .manifest >>= fun path ↦ ((Manifest.load path).run w).1 := by
  have hlog (m : Manifest) : Reads (do
      log .info (usingLine m)
      return m) := (Reads.log _ _).bind fun _ ↦ .pure m
  rw [manifest, p.reads_manifestPath.fst_bind
    fun path ↦ (Manifest.reads_load path).bind hlog, fst_run_manifestPath h]
  congr
  funext path
  rw [(Manifest.reads_load path).fst_bind hlog]
  cases ((Manifest.load path).run w).1 <;> rfl

theorem comesTo_of_chosen
    (h : ((p.search.chosen p.root p.choice).run w).1 = r.mapError .manifest) : p.ComesTo w r := by
  have hloads := fst_run_manifest h
  have hsingle : ((do return [← p.manifestPath] : Action (List String)).run w).1 =
      (r.map ([·])).mapError .manifest := by
    rw [p.reads_manifestPath.fst_bind fun path ↦ .pure [path], fst_run_manifestPath h]
    cases r <;> rfl
  constructor
  case chosen => exact hsingle
  case given =>
    intro path hchoice
    unfold manifestPaths
    rw [hchoice]
    exact hsingle
  case loads => exact hloads
  case path =>
    intro m hm
    rw [hloads] at hm
    cases r with
    | error e => cases hm
    | ok path =>
      obtain ⟨text, -, hparse, -⟩ := Manifest.load_ok (run_eq_of_fst hm)
      rw [(Manifest.parse_elsewhere hparse path).1]
  case problem =>
    intro e he
    rw [hloads]
    cases r with
    | error e' =>
      constructor
      · intro h
        rw [Failure.manifest.inj (Except.error.inj h)]
      · intro h
        rw [Except.error.inj h]
        rfl
    | ok path =>
      constructor
      · intro h
        obtain ⟨problem, hproblem, heq⟩ := Manifest.load_fails path w _ _ (run_eq_of_fst h)
        rw [Failure.manifest.inj heq] at he
        exact absurd hproblem he
      · intro h
        cases h

/-- A listed manifest is the given one, or one that the search finds. -/
theorem mem_manifestPaths {paths : List String} {l : Listing} {path : String}
    (hall : ((p.search.all p.root).run w).1 = .ok found)
    (hpaths : ((p.manifestPaths l).run w).1 = .ok paths) (hpath : path ∈ paths) :
    p.choice = .given path ∧ w.files.isFile path = true ∨ path ∈ found := by
  obtain ⟨r, hfinds, hchosen⟩ := finds_chosen hall
  have hcomes := comesTo_of_chosen hchosen
  have hsingle (h : ((p.manifestPaths l).run w).1 = (r.map ([·])).mapError .manifest) :
      r = .ok path := by
    rw [h] at hpaths
    cases r with
    | error e => cases hpaths
    | ok found =>
      obtain rfl := Except.ok.inj hpaths
      rw [List.mem_singleton.1 hpath]
  have hresult (h : r = .ok path) :
      p.choice = .given path ∧ w.files.isFile path = true ∨ path ∈ found := by
    subst h
    cases hfinds with
    | given hchoice hfile => exact .inl ⟨hchoice, hfile⟩
    | head _ hfound | only _ hfound => exact .inr (by simp [hfound])
  cases l with
  | chosen => exact hresult (hsingle hcomes.chosen)
  | all =>
    cases hchoice : p.choice with
    | given given =>
      rw [← hchoice]
      exact hresult (hsingle (hcomes.given given hchoice))
    | searched c =>
      have hsearch : p.manifestPaths .all = p.search.all p.root := by
        unfold manifestPaths
        rw [hchoice]
      rw [hsearch, hall] at hpaths
      exact .inr (Except.ok.inj hpaths ▸ hpath)

theorem comesTo_given {path : String} (hchoice : p.choice = .given path)
    (hfile : w.files.isFile path = true) : p.ComesTo w (.ok path) :=
  comesTo_of_chosen (by simp [Search.chosen, hchoice, run_bind, hfile, Except.mapError])

section Choosing

variable (root : String) (s : Settings) (discovery : Option SearchChoice)

theorem root_choosing (config : Option String) :
    ((ofSettings root s).choosing config discovery).root = root := by
  cases config <;> cases discovery <;> rfl

theorem choice_choosing_some (text : String) :
    ((ofSettings root s).choosing (some text) discovery).choice =
      .given (Path.anchor root text) := by
  cases discovery <;> rfl

theorem choice_choosing_none : ∃ c, ((ofSettings root s).choosing none discovery).choice =
    .searched c := by
  cases discovery with
  | some c => exact ⟨c, rfl⟩
  | none =>
    change ∃ c, (ofSettings root s).choice = .searched c
    rw [ofSettings]
    cases s.searchChoice with
    | ok c => exact ⟨c, rfl⟩
    | error e => exact ⟨.firstMatch, rfl⟩

end Choosing

end Plan

end AmbientTypes
