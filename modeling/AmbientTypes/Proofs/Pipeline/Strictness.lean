import AmbientTypes.Proofs.Compilation.Outcome
import AmbientTypes.Proofs.Pipeline.Leftovers
import Mathlib.Algebra.GroupWithZero.Nat

namespace AmbientTypes

open Manifest (IsAccepted)

structure Files.Refuses (f : Files) (path : String) (e : SysError) : Prop where
  error : f.removeFile path = .error e
  ne_notFound : e ≠ .notFound

theorem Storage.discardFile_cases (path : String) (w : World) :
    (∃ e, w.files.Refuses path e ∧
        (discardFile path).run w = (.error (.removingFile path e), w)) ∨
      (∀ e, ¬ w.files.Refuses path e) ∧
        ∃ b w', (discardFile path).run w = (.ok b, w') ∧ w.files.Clears path w'.files := by
  have hclears {b : Bool} {w' : World} (h : (discardFile path).run w = (.ok b, w')) :=
    (clears_of_discardFile h).1
  rw [run_discardFile] at hclears ⊢
  cases hr : w.files.removeFile path with
  | ok g =>
    refine .inr ⟨fun e he ↦ ?_, true, _, rfl, hclears (by rw [hr])⟩
    cases hr.symm.trans he.error
  | error e =>
    cases e with
    | notFound =>
      refine .inr ⟨fun e he ↦ ?_, false, _, rfl, hclears (by rw [hr])⟩
      exact he.ne_notFound (Except.error.inj (he.error.symm.trans hr))
    | _ => exact .inl ⟨_, ⟨hr, by simp⟩, rfl⟩

theorem Files.not_refuses_of_isFile {f : Files} {dir s : String} (hs : Path.IsName s)
    (h : f.isFile (Path.join dir s) = true) (e : SysError) : ¬ f.Refuses (Path.join dir s) e := by
  intro hrefuses
  obtain ⟨d, hleaf⟩ := isLeaf_of_isFile hs h
  obtain ⟨hnot | hfolder, -⟩ | ⟨-, ⟨-, hr⟩ | ⟨-, g, hr, -⟩⟩ := removeFile_join hs hleaf.leadsTo
  · exact hnot hleaf.fits
  · exact hleaf.ne_folder hs hfolder
  · exact hrefuses.ne_notFound (Except.error.inj (hrefuses.error.symm.trans hr))
  · cases hr.symm.trans hrefuses.error

namespace Text

/-- Lines that are written one below the other end as often as there are lines, and as often as
there are line ends in them. -/
theorem count_newline_lines (lines : List String) :
    (String.join (lines.map (· ++ "\n"))).toList.count '\n' =
      lines.length + (lines.map (·.toList.count '\n')).sum := by
  induction lines with
  | nil => rfl
  | cons line lines ih =>
    rw [List.map_cons, String.join_cons, String.toList_append, List.count_append, ih,
      String.toList_append, List.count_append, List.map_cons, List.sum_cons, List.length_cons]
    have hnewline : "\n".toList.count '\n' = 1 := rfl
    omega

end Text

namespace StrictError

def context (e : StrictError) : String :=
  String.join (e.remark.detailLines.map (· ++ "\n"))

/-- An error that tells of the errors among the messages of a compiler, each on a line of its own
unless its text goes on over more. -/
structure TellsOf (e : StrictError) (ms : List CompilerMessage) : Prop where
  count : e.count = (ms.filter (·.isError)).length
  messages : e.messages = ms
  rendered : ∀ colored, e.remark.render colored =
    String.join ((e.remark.headLines colored).map (· ++ "\n")) ++ e.context ++
      String.join ((e.remark.adviceLines colored).map (· ++ "\n"))
  context : e.context =
    String.join ((ms.filter (·.isError)).map fun t ↦ "  = " ++ detail t ++ "\n")
  lines : e.context.toList.count '\n' =
    e.count + ((ms.filter (·.isError)).map fun t ↦ (detail t).toList.count '\n').sum

theorem tellsOf_countErrors (ms : List CompilerMessage) : TellsOf ⟨countErrors ms, ms⟩ ms := by
  have hcount : countErrors ms = (ms.filter (·.isError)).length := List.countP_eq_length_filter
  have hplace (e : StrictError) : e.remark.placeLines = [] := rfl
  refine ⟨hcount, rfl, fun colored ↦ ?_, ?_, ?_⟩
  · rw [Remark.render, Remark.renderedLines, hplace, List.append_nil, List.map_append,
      List.map_append, String.join_append, String.join_append]
    rfl
  · rw [context, Remark.detailLines, remark, List.map_map, List.map_map]
    rfl
  · have hindent (s : String) : ("  = " ++ s).toList.count '\n' = s.toList.count '\n' := by
      rw [String.toList_append, List.count_append]
      exact Nat.zero_add _
    rw [context, Text.count_newline_lines, Remark.detailLines, remark, List.map_map, List.map_map,
      List.length_map]
    simp only [Function.comp_def, hindent, hcount]

end StrictError

namespace Plan

variable {p : Plan} {m : Manifest} {c : Compiler} {r : CompileResult} {w w' v : World}

/-- The compiler of a run has given a result. -/
structure Obtains (p : Plan) (m : Manifest) (c : Compiler) (w : World) (r : CompileResult)
    (v : World) : Prop where
  accepted : IsAccepted m.name
  ran : ∃ j, CompileJob.ofManifest w.files m (p.declarationPath m.name) = .ok j ∧
    (c.run j).run w = (.ok r, v)

/-- Whether errors end the run. -/
def Condemns (p : Plan) (r : CompileResult) : Prop :=
  p.strict = true ∧ ∃ t ∈ r.messages, t.isError = true

/-- How a run goes on with the result of its compiler. -/
inductive Verdict (p : Plan) (m : Manifest) (r : CompileResult) (f : Files) :
    Except Failure CompileResult → Files → Prop
  | passed (h : ¬ p.Condemns r) : Verdict p m r f (.ok r) f
  | refused {e : SysError} (h : p.Condemns r)
      (hrefuses : f.Refuses (p.declarationPath m.name) e) :
      Verdict p m r f (.error (.removingFile (p.declarationPath m.name) e)) f
  | fatal {g : Files} (h : p.Condemns r)
      (hgrants : ∀ e, ¬ f.Refuses (p.declarationPath m.name) e)
      (hclears : f.Clears (p.declarationPath m.name) g) :
      Verdict p m r f (.error (.strict ⟨r.countErrors, r.messages⟩)) g

theorem condemns_iff : p.Condemns r ↔ (p.strict && decide (0 < r.countErrors)) = true := by
  rw [Bool.and_eq_true, decide_eq_true_iff, CompileResult.countErrors, countErrors,
    List.countP_pos_iff, Condemns]

theorem verdict_of_obtains (h : p.Obtains m c w r v) {x : Except Failure CompileResult}
    (hrun : (p.compile m c).run w = (x, w')) : Verdict p m r v.files x w'.files := by
  obtain ⟨-, j, hj, hcompiler⟩ := h
  obtain ⟨notices, hcompile⟩ := run_compile (run_job_ok hj) hcompiler
  rw [hcompile, outFile_of_ofManifest hj] at hrun
  by_cases hr : p.Condemns r
  · rw [if_pos (condemns_iff.1 hr), Action.run_bind] at hrun
    rcases Storage.discardFile_cases (p.declarationPath m.name) { v with notices := notices } with
      ⟨e, hrefuses, he⟩ | ⟨hgrants, b, u, hb, hclears⟩
    · rw [he] at hrun
      obtain ⟨rfl, rfl⟩ := Prod.mk.inj hrun
      exact .refused hr hrefuses
    · rw [hb] at hrun
      obtain ⟨rfl, rfl⟩ := Prod.mk.inj hrun
      exact .fatal hr hgrants hclears
  · rw [if_neg (condemns_iff.not.1 hr)] at hrun
    obtain ⟨rfl, rfl⟩ := Prod.mk.inj hrun
    exact .passed hr

/-- The entries of a shared directory that all packages share or that belong to another one. -/
inductive IsOthers (name : String) : String → Prop
  | index : IsOthers name indexName
  | stub : IsOthers name stubName
  | declarations {other : String} (h : other ≠ name) : IsOthers name (declarationName other)

theorem IsOthers.ne_declarationName {name s : String} (ha : IsAccepted name)
    (h : IsOthers name s) : s ≠ declarationName name := by
  cases h with
  | index => exact (declarationName_ne_indexName ha).symm
  | stub => exact (declarationName_ne_stubName name).symm
  | declarations h => exact fun heq ↦ h (declarationName_injective heq)

theorem node?_of_clears {f g : Files} (ha : IsAccepted m.name)
    (h : f.Clears (p.declarationPath m.name) g) {l : Location}
    (hl : ∀ d, f.LeadsTo p.sharedDir d → l ≠ d ++ [declarationName m.name]) :
    g.tree.node? l = f.tree.node? l := by
  rcases h.rest with rfl | ⟨d, s, t, hentry, hsets⟩
  · rfl
  · obtain ⟨-, d', hd', hloc, -⟩ := (Files.lookupLink_join (isName_declarationName ha)).1 hentry
    exact hsets.of_ne (hloc ▸ hl d' hd')

/-- A run fails over errors of its compiler just where they are condemned and what was left can be
removed. The failure tells of all of them; nothing stands in the place of the declarations then, and
all else is as the compiler left it. In any other case everything is, and a result that is not
condemned is passed on. -/
theorem compile_strictness (h : p.Obtains m c w r v) {x : Except Failure CompileResult}
    (hrun : (p.compile m c).run w = (x, w')) :
    ((∃ e, x = .error (.strict e)) ↔
      p.Condemns r ∧ ∀ e, ¬ v.files.Refuses (p.declarationPath m.name) e) ∧
    (∀ e, x = .error (.strict e) →
      e.TellsOf r.messages ∧ w'.files.Vacant (p.declarationPath m.name) ∧
      (∀ l, (∀ d, v.files.LeadsTo p.sharedDir d → l ≠ d ++ [declarationName m.name]) →
        w'.files.tree.node? l = v.files.tree.node? l) ∧
      ∀ d s, IsOthers m.name s → w'.files.tree.node? (d ++ [s]) = v.files.tree.node? (d ++ [s])) ∧
    (∀ e, p.Condemns r → v.files.Refuses (p.declarationPath m.name) e →
      x = .error (.removingFile (p.declarationPath m.name) e) ∧ w'.files = v.files) ∧
    (v.files.isFile (p.declarationPath m.name) = true →
      ∀ e, ¬ v.files.Refuses (p.declarationPath m.name) e) ∧
    (¬ p.Condemns r → x = .ok r ∧ w'.files = v.files) := by
  have hverdict := verdict_of_obtains h hrun
  generalize w'.files = g at hverdict
  have hfile : v.files.isFile (p.declarationPath m.name) = true →
      ∀ e, ¬ v.files.Refuses (p.declarationPath m.name) e :=
    Files.not_refuses_of_isFile (isName_declarationName h.accepted)
  cases hverdict with
  | passed hr =>
    refine ⟨iff_of_false (by simp) fun hnot ↦ hr hnot.1, nofun, fun e hnot ↦ absurd hnot hr, hfile,
      fun _ ↦ ⟨rfl, rfl⟩⟩
  | @refused e hr hrefuses =>
    refine ⟨iff_of_false (by simp) fun hnot ↦ hnot.2 e hrefuses, nofun, fun e' _ he ↦ ?_, hfile,
      fun hnot ↦ absurd hr hnot⟩
    obtain rfl := Except.error.inj (hrefuses.error.symm.trans he.error)
    exact ⟨rfl, rfl⟩
  | fatal hr hgrants hclears =>
    refine ⟨iff_of_true ⟨_, rfl⟩ ⟨hr, hgrants⟩, ?_, fun e _ he ↦ absurd he (hgrants e), hfile,
      fun hnot ↦ absurd hr hnot⟩
    rintro e ⟨⟩
    refine ⟨StrictError.tellsOf_countErrors r.messages, hclears.vacant,
      fun l ↦ node?_of_clears h.accepted hclears, fun d s hs ↦ ?_⟩
    refine node?_of_clears h.accepted hclears fun d' _ heq ↦ ?_
    exact hs.ne_declarationName h.accepted (List.singleton_inj.1 (List.append_inj' heq rfl).2)

section Example

/-- A compiler that reports an error and changes the files. -/
def reporting (text : String) (change : Files → Except SysError Files) : Compiler where
  shown := "tsc"
  run := fun _ ↦ do
    Action.setFiles ((change (← Action.files)).toOption.getD (← Action.files))
    return ⟨false, [⟨none, none, none, 1, .error, text⟩], none⟩

def strictShop : Plan := { shopPlan with strict := true }

theorem obtains_reporting (text : String) (change : Files → Except SysError Files) :
    strictShop.Obtains shopManifest (reporting text change) (shopBeside .empty)
      ⟨false, [⟨none, none, none, 1, .error, text⟩], none⟩
      { shopBeside .empty with
        files := (change (shopBeside .empty).files).toOption.getD (shopBeside .empty).files } :=
  ⟨Manifest.nameFault?_eq_none.1 (by decide), _, rfl, rfl⟩

def condemned (text : String) (change : Files → Except SysError Files) :
    Except Failure CompileResult × World :=
  (strictShop.compile shopManifest (reporting text change)).run (shopBeside .empty)

theorem compile_strictness_shop : ∃ e w',
    condemned "bad" (·.writeBytes "types/shop.d.ts" button.toUTF8) = (.error (.strict e), w') ∧
      e.TellsOf [⟨none, none, none, 1, .error, "bad"⟩] ∧ w'.files.Vacant "types/shop.d.ts" := by
  have hobtains := obtains_reporting "bad" (·.writeBytes "types/shop.d.ts" button.toUTF8)
  obtain ⟨hiff, htells, -, hfile, -⟩ := compile_strictness hobtains rfl
  have hgrants := hfile (by decide +kernel)
  obtain ⟨e, he⟩ := hiff.2 ⟨⟨rfl, _, List.mem_singleton_self _, rfl⟩, hgrants⟩
  obtain ⟨hmessages, hvacant, -⟩ := htells e he
  exact ⟨e, _, Prod.ext he rfl, hmessages, hvacant⟩

/-- An error of the compiler does not always end a strict run as such, what its compiler did to the
index stays, and an error may take more than one line. -/
theorem strictness_exceptions :
    (¬ ∀ (p : Plan) (m : Manifest) (c : Compiler) (r : CompileResult) (w v : World),
      p.Obtains m c w r v → p.Condemns r → ∃ e, ((p.compile m c).run w).1 = .error (.strict e)) ∧
    (¬ ∀ (p : Plan) (m : Manifest) (c : Compiler) (r : CompileResult) (w v w' : World)
        (e : StrictError), p.Obtains m c w r v → (p.compile m c).run w = (.error (.strict e), w') →
      ∀ d, w.files.LeadsTo p.sharedDir d →
        w'.files.tree.node? (d ++ [indexName]) = w.files.tree.node? (d ++ [indexName])) ∧
    ¬ ∀ (p : Plan) (m : Manifest) (c : Compiler) (r : CompileResult) (w v w' : World)
        (e : StrictError), p.Obtains m c w r v → (p.compile m c).run w = (.error (.strict e), w') →
      e.context.toList.count '\n' = (r.messages.filter (·.isError)).length := by
  refine ⟨fun h ↦ ?_, fun h ↦ ?_, fun h ↦ ?_⟩
  · obtain ⟨e, he⟩ := h _ _ _ _ _ _ (obtains_reporting "bad" (·.makeFolder "types/shop.d.ts"))
      ⟨rfl, _, List.mem_singleton_self _, rfl⟩
    have hfolder : (condemned "bad" (·.makeFolder "types/shop.d.ts")).1 =
        .error (.removingFile "types/shop.d.ts" .isADirectory) := by
      decide +kernel
    cases hfolder.symm.trans he
  · have hfatal : (condemned "bad" (·.writeBytes "types/index.d.ts" button.toUTF8)).1 =
        .error (.strict ⟨1, [⟨none, none, none, 1, .error, "bad"⟩]⟩) := by
      decide +kernel
    have hd : (shopBeside .empty).files.LeadsTo strictShop.sharedDir ["types"] :=
      .enter (by decide) (by decide) (by decide) rfl (.done rfl)
    have hindex := h _ _ _ _ _ _ _ _ (obtains_reporting "bad" _) (Action.run_eq_of_fst hfatal) _ hd
    have htext := Files.textAt?_congr hindex
    revert htext
    decide +kernel
  · have hfatal : (condemned "bad\nworse" .ok).1 =
        .error (.strict ⟨1, [⟨none, none, none, 1, .error, "bad\nworse"⟩]⟩) := by
      decide +kernel
    have hlines := h _ _ _ _ _ _ _ _ (obtains_reporting "bad\nworse" _)
      (Action.run_eq_of_fst hfatal)
    revert hlines
    decide +kernel

end Example

end Plan

end AmbientTypes
