import AmbientTypes.Proofs.Pipeline.Run

namespace AmbientTypes

open Manifest (IsAccepted)
open SharedFolder (Lists indexAfter)

/-- A run of the pipeline: for which package, where it got that far, and how it ended. -/
structure Emission where
  package : Option String
  result : Except Failure RunSummary

namespace Plan

def package? (p : Plan) (w : World) : Option String :=
  (p.manifest.run w).1.toOption.map (·.name)

/-- Runs over a shared directory that is empty at first. Each has its own plan and its own compiler,
and in between anything may change outside of the directory. -/
inductive History (d : Location) : List Emission → World → Prop
  | start {w : World} (hfolder : w.files.tree.node? d = some .folder)
      (hempty : ∀ s, w.files.tree.node? (d ++ [s]) = none) : History d [] w
  | edit {es : List Emission} {w w' : World} (h : History d es w)
      (hsame : ∀ s, w'.files.tree.node? (d ++ [s]) = w.files.tree.node? (d ++ [s])) :
      History d es w'
  | run {es : List Emission} {w w' : World} {p : Plan} {c : CompilerProgram} {launch : Launcher}
      {r : Except Failure RunSummary} (h : History d es w) (hd : w.files.LeadsTo p.sharedDir d)
      (hl : p.Suits launch c w d) (hrun : (p.run (c.toCompiler launch)).run w = (r, w')) :
      History d (es ++ [⟨p.package? w, r⟩]) w'

def lastFor? (es : List Emission) (name : String) : Option Emission :=
  es.reverse.find? fun e ↦ e.package = some name && !endsEarly e.result

/-- The last run for a package left no declarations. -/
def Lost (es : List Emission) (name : String) : Prop :=
  ∃ e, lastFor? es name = some e ∧ leavesNothing e.result = true

theorem lastFor?_concat (es : List Emission) (e : Emission) (name : String) :
    lastFor? (es ++ [e]) name =
      if e.package = some name ∧ endsEarly e.result = false then some e else lastFor? es name := by
  rw [lastFor?, List.reverse_append, List.reverse_singleton, List.singleton_append, List.find?_cons]
  by_cases h : e.package = some name ∧ endsEarly e.result = false
  · simp [h]
  · rw [if_neg h, lastFor?]
    split
    · next hp => simp at hp; exact absurd hp h
    · rfl

theorem not_endsEarly_of_leavesNothing {r : Except Failure RunSummary}
    (h : leavesNothing r = true) : endsEarly r = false := by
  rcases r with e | s
  · cases e <;> first | rfl | cases h
  · rfl

/-- Every line of the index is there for a package whose file is there, or was lost. -/
structure Sound (d : Location) (es : List Emission) (f : Files) : Prop where
  noLinks : ∀ s t, f.tree.node? (d ++ [s]) ≠ some (.link t)
  index : ∃ names, f.textAt? (d ++ [indexName]) = some (indexAfter "" names) ∧
    ∀ n ∈ names, IsAccepted n ∧ (f.HoldsFile d (declarationName n) ∨ Lost es n)

variable {d : Location} {es : List Emission} {f g : Files} {name : String}
  {r : Except Failure RunSummary}

theorem Lost.concat {e : Emission} (h : Lost es name)
    (hother : e.package ≠ some name ∨ endsEarly e.result = true) : Lost (es ++ [e]) name := by
  obtain ⟨e', he', hr⟩ := h
  refine ⟨e', ?_, hr⟩
  rw [lastFor?_concat, if_neg, he']
  rintro ⟨hp, hearly⟩
  exact hother.elim (· hp) fun h ↦ by simp [h] at hearly

theorem lost_concat (hr : leavesNothing r = true) : Lost (es ++ [⟨some name, r⟩]) name :=
  ⟨_, by rw [lastFor?_concat, if_pos ⟨rfl, not_endsEarly_of_leavesNothing hr⟩], hr⟩

namespace Sound

theorem congr (h : Sound d es f)
    (hsame : ∀ s, g.tree.node? (d ++ [s]) = f.tree.node? (d ++ [s])) : Sound d es g := by
  obtain ⟨hlinks, names, htext, hnames⟩ := h
  refine ⟨fun s t ↦ hsame s ▸ hlinks s t, names, ?_, fun n hn ↦ ?_⟩
  · rw [Files.textAt?_congr (hsame indexName), htext]
  · refine (hnames n hn).imp_right (Or.imp_left ?_)
    rintro ⟨k, hk⟩
    exact ⟨k, (hsame _).trans hk⟩

theorem concat_early (h : Sound d es f) {e : Emission}
    (he : e.package = none ∨ endsEarly e.result = true) : Sound d (es ++ [e]) f := by
  obtain ⟨hlinks, names, htext, hnames⟩ := h
  refine ⟨hlinks, names, htext, fun n hn ↦ ?_⟩
  refine (hnames n hn).imp_right (Or.imp_right fun hlost ↦ hlost.concat (he.imp_left ?_))
  intro hnone
  simp [hnone]

theorem other {n : String} (h : f.HoldsFile d (declarationName n) ∨ Lost es n) (hn : n ≠ name)
    (hsame : g.tree.node? (d ++ [declarationName n]) = f.tree.node? (d ++ [declarationName n])) :
    g.HoldsFile d (declarationName n) ∨ Lost (es ++ [⟨some name, r⟩]) n := by
  rcases h with ⟨k, hk⟩ | hlost
  · exact .inl ⟨k, hsame.trans hk⟩
  · exact .inr (hlost.concat (.inl (by simpa using hn.symm)))

theorem concat_lost (h : Sound d es f) {dir : String} (ha : IsAccepted name)
    (hr : leavesNothing r = true) (hg : f.Touches dir d (declarationName name) g) :
    Sound d (es ++ [⟨some name, r⟩]) g := by
  obtain ⟨hlinks, names, htext, hnames⟩ := h
  have hindex := hg.others _ (declarationName_ne_indexName ha).symm
  refine ⟨(Files.holdsNoLinks_iff hg.leadsTo).1 hg.noLinks, names, ?_, fun n hn ↦ ?_⟩
  · rw [Files.textAt?_congr hindex, htext]
  · refine (hnames n hn).imp_right fun hfile ↦ ?_
    by_cases heq : n = name
    · exact .inr (heq ▸ lost_concat hr)
    · exact other hfile heq (hg.others _ fun h ↦ heq (declarationName_injective h))

theorem concat_kept (h : Sound d es f) {dir : String} (ha : IsAccepted name)
    (hg : SharedFolder.Confined dir name f d g) (hfile : g.HoldsFile d (declarationName name)) :
    Sound d (es ++ [⟨some name, r⟩]) g := by
  obtain ⟨hlinks, names, htext, hnames⟩ := h
  have hkept (n : String) (hn : IsAccepted n)
      (hn' : f.HoldsFile d (declarationName n) ∨ Lost es n) :
      g.HoldsFile d (declarationName n) ∨ Lost (es ++ [⟨some name, r⟩]) n := by
    by_cases heq : n = name
    · exact .inl (heq ▸ hfile)
    · exact other hn' heq (hg.others _ (fun h ↦ heq (declarationName_injective h))
        (declarationName_ne_indexName hn) (declarationName_ne_stubName n))
  refine ⟨(Files.holdsNoLinks_iff hg.leadsTo).1 hg.noLinks, ?_⟩
  rcases hg.index with hindex | ⟨contents, k, htext', hk, hbytes⟩
  · refine ⟨names, by rw [Files.textAt?_congr hindex, htext], fun n hn ↦ ?_⟩
    exact (hnames n hn).imp_right (hkept n (hnames n hn).1)
  · obtain rfl : indexAfter "" names = contents := Option.some.inj (htext.symm.trans htext')
    refine ⟨names ++ [name], ?_, fun n hn ↦ ?_⟩
    · rw [SharedFolder.indexAfter_concat ha fun n hn ↦ (hnames n hn).1,
        ← SharedFolder.indexAfter_singleton ha]
      simp only [Files.textAt?, hk, hbytes, Text.ofUtf8?_toUTF8]
    · rcases List.mem_append.1 hn with hn | hn
      · exact (hnames n hn).imp_right (hkept n (hnames n hn).1)
      · obtain rfl := List.mem_singleton.1 hn
        exact ⟨ha, .inl hfile⟩

end Sound

theorem sound_of_history {w : World} (h : History d es w) : Sound d es w.files := by
  induction h with
  | start _ hempty =>
    refine ⟨by simp [hempty], [], ?_, by simp⟩
    rw [Files.textAt?, hempty]
    rfl
  | edit _ hsame ih => exact ih.congr hsame
  | run _ hd hl hrun ih =>
    -- A run changes nothing, or leaves its package a file, or is one that loses it.
    have hno := (Files.holdsNoLinks_iff hd).2 ih.noLinks
    rcases run_effect hno hd hl hrun with ⟨⟨e, he⟩, hfiles⟩ | ⟨m, hm, ha, heffect⟩
    · rw [hfiles]
      exact ih.concat_early (.inl (by simp [package?, he, Except.toOption]))
    · simp only [package?, hm, Except.toOption, Option.map_some]
      cases heffect with
      | untouched hr hfiles =>
        rw [hfiles]
        exact ih.concat_early (.inr hr)
      | lost hr htouches => exact ih.concat_lost ha hr htouches
      | kept hconfined hfile => exact ih.concat_kept ha hconfined hfile

/-- Whatever the runs before, the index forwards to no missing file but that of a package whose last
run left none. -/
theorem forwarded_or_lost {w : World} (h : History d es w) {contents : String}
    (hindex : w.files.textAt? (d ++ [indexName]) = some contents)
    (hname : Manifest.nameFault? name = none) (hlists : Lists contents name) :
    w.files.HoldsFile d (declarationName name) ∨ Lost es name := by
  obtain ⟨-, names, htext, hnames⟩ := sound_of_history h
  obtain rfl : indexAfter "" names = contents := Option.some.inj (htext.symm.trans hindex)
  have hmem := (SharedFolder.lists_indexAfter (Manifest.nameFault?_eq_none.1 hname)
    fun n hn ↦ (hnames n hn).1).1 hlists
  exact (hnames name (hmem.resolve_left (SharedFolder.not_lists_empty name))).2

section Example

def emitting (path text : String) : Launcher := fun _ w ↦
  (.ok ⟨some 0, .empty, .empty⟩,
    { w with files := (w.files.writeBytes path text.toUTF8).toOption.getD w.files })

def silent : Launcher := fun _ w ↦ (.ok ⟨some 0, .empty, .empty⟩, w)

theorem writesOnly_emitting {dir s : String} (hs : Path.IsName s) (text : String)
    (line : CommandLine) : (emitting (Path.join dir s) text).WritesOnly line dir d s := by
  intro w hd hno hnone
  change w.files.Touches dir d s ((w.files.writeBytes _ _).toOption.getD w.files) ∧
    ((w.files.writeBytes _ _).toOption.getD w.files).tree.node? (d ++ [s]) ≠ some .folder
  cases hwrite : w.files.writeBytes (Path.join dir s) text.toUTF8 with
  | error e => exact ⟨.refl hd hno s, by simp [Except.toOption, hnone]⟩
  | ok g =>
    obtain ⟨e, he, hfolder, hsets⟩ := Files.writeBytes_join_ok hs hno.ne_link hwrite
    obtain rfl := he.unique hd
    exact ⟨.of_sets hd hno hsets hfolder (by simp), by simp [Except.toOption, hsets.self]⟩

theorem writesOnly_silent {dir s : String} (line : CommandLine) :
    silent.WritesOnly line dir d s :=
  fun w hd hno hnone ↦ ⟨.refl hd hno s, by
    change w.files.tree.node? (d ++ [s]) ≠ some .folder
    simp [hnone]⟩

def shop : World where
  files := { tree := .folder [
    ("shop.json", .file ⟨"\x7b\"name\":\"shop\"\x7d".toUTF8, none⟩), ("types", .empty)] }

def shopPlan : Plan where
  root := "."
  search := {}
  choice := .given "shop.json"
  sharedDir := "types"
  strict := false

def emitted : Except Failure RunSummary × World :=
  (shopPlan.run (CompilerProgram.toCompiler (emitting "types/shop.d.ts" "") ⟨"tsc", []⟩)).run shop

def skipped : Except Failure RunSummary × World :=
  (shopPlan.run (CompilerProgram.toCompiler silent ⟨"tsc", []⟩)).run emitted.2

theorem shop_leadsTo : shop.files.LeadsTo "types" ["types"] :=
  .enter (by decide) (by decide) (by decide) rfl (.done rfl)

theorem shop_suits : shopPlan.Suits (emitting "types/shop.d.ts" "") ⟨"tsc", []⟩ shop ["types"] := by
  intro m v j hm _
  have hname : (shopPlan.manifest.run shop).1 = .ok ⟨"shop", [], "shop.json"⟩ := by decide +kernel
  rw [hm] at hname
  obtain rfl := Except.ok.inj hname
  have hpath : "types/shop.d.ts" = Path.join "types" (declarationName "shop") := by decide
  rw [hpath]
  exact writesOnly_emitting (isName_declarationName (Manifest.nameFault?_eq_none.1 (by decide))) ""
    _

theorem run_shop : (shopPlan.run (CompilerProgram.toCompiler (emitting "types/shop.d.ts" "")
    ⟨"tsc", []⟩)).run shop = (emitted.1, emitted.2) := by
  rw [Prod.eta, emitted]

theorem run_again : (shopPlan.run (CompilerProgram.toCompiler silent ⟨"tsc", []⟩)).run emitted.2 =
    (skipped.1, skipped.2) := by
  rw [Prod.eta, skipped]

theorem history_emitted :
    History ["types"] ([] ++ [⟨shopPlan.package? shop, emitted.1⟩]) emitted.2 :=
  .run (.start rfl fun _ ↦ rfl) shop_leadsTo shop_suits run_shop

theorem history_skipped : History ["types"] ([] ++ [⟨shopPlan.package? shop, emitted.1⟩] ++
    [⟨shopPlan.package? emitted.2, skipped.1⟩]) skipped.2 := by
  have hno : shop.files.HoldsNoLinks "types" := by
    rw [Files.holdsNoLinks_iff shop_leadsTo]
    rintro s t ⟨⟩
  exact .run history_emitted (run_leadsTo hno shop_leadsTo shop_suits run_shop)
    (fun _ _ _ _ _ ↦ writesOnly_silent _) run_again

theorem forwarded_or_lost_shop :
    emitted.2.files.HoldsFile ["types"] (declarationName "shop") ∨
      Lost ([] ++ [⟨shopPlan.package? shop, emitted.1⟩]) "shop" := by
  have hindex : emitted.2.files.textAt? (["types"] ++ [indexName]) =
      some "export * from './shop';\n" := by
    decide +kernel
  exact forwarded_or_lost history_emitted hindex (by decide) (by decide)

/-- A run that emits nothing leaves an index that forwards to a missing file. -/
theorem forwarded_but_lost : ¬ ∀ (d : Location) (es : List Emission) (w : World)
    (contents name : String), History d es w →
      w.files.textAt? (d ++ [indexName]) = some contents → Manifest.nameFault? name = none →
        Lists contents name → w.files.HoldsFile d (declarationName name) := by
  intro h
  obtain ⟨k, hk⟩ := h ["types"] _ _ "export * from './shop';\n" "shop" history_skipped
    (by decide +kernel) (by decide) (by decide)
  have hnone : (skipped.2.files.tree.get?
      (["types"] ++ [declarationName "shop"])).isNone = true := by
    decide +kernel
  rw [Tree.node?_eq_some_file.1 hk] at hnone
  cases hnone

end Example

end Plan

end AmbientTypes
