import AmbientTypes.Compilation.Basic
import Mathlib.Data.List.Basic
import Mathlib.Data.List.Induction

namespace AmbientTypes.CompileJob

open AmbientTypes.Path (components same)

variable {paths sources : List String} {path : String}

theorem same_iff {a b : String} : same a b = true ↔ components a = components b := by
  simp [same]

/-- The paths that are the first to name their file, in order. -/
structure IsFirstsOf (paths sources : List String) : Prop where
  mem_iff : ∀ x, x ∈ sources ↔ ∃ before after, paths = before ++ x :: after ∧
    ∀ y ∈ before, components y ≠ components x
  complete : ∀ path ∈ paths, ∃ x ∈ sources, components x = components path
  distinct : sources.Pairwise (components · ≠ components ·)
  ordered : sources.Pairwise fun x y ↦ paths.findIdx (same x) < paths.findIdx (same y)

theorem exists_split_concat {α : Type} {xs : List α} {a x : α} {P : List α → Prop} :
    (∃ before after, xs ++ [a] = before ++ x :: after ∧ P before) ↔
      (∃ before after, xs = before ++ x :: after ∧ P before) ∨ x = a ∧ P xs := by
  constructor
  · rintro ⟨before, after, h, hP⟩
    rcases List.eq_nil_or_concat' after with rfl | ⟨after, b, rfl⟩
    · obtain ⟨rfl, hx⟩ := List.append_inj' h rfl
      exact .inr ⟨(List.singleton_inj.1 hx).symm, hP⟩
    · rw [← List.cons_append, ← List.append_assoc] at h
      exact .inl ⟨before, after, (List.append_inj' h rfl).1, hP⟩
  · rintro (⟨before, after, rfl, hP⟩ | ⟨rfl, hP⟩)
    · exact ⟨before, after ++ [a], by simp, hP⟩
    · exact ⟨xs, [], rfl, hP⟩

namespace IsFirstsOf

theorem mem_paths (h : IsFirstsOf paths sources) {x : String} (hx : x ∈ sources) : x ∈ paths := by
  obtain ⟨before, after, rfl, -⟩ := (h.mem_iff x).1 hx
  simp

theorem findIdx_concat (h : IsFirstsOf paths sources) {x : String} (hx : x ∈ sources) :
    (paths ++ [path]).findIdx (same x) = paths.findIdx (same x) := by
  have hlt : paths.findIdx (same x) < paths.length :=
    List.findIdx_lt_length_of_exists ⟨x, h.mem_paths hx, same_iff.2 rfl⟩
  rw [List.findIdx_append, if_pos hlt]

theorem ordered_concat (h : IsFirstsOf paths sources) :
    sources.Pairwise fun x y ↦
      (paths ++ [path]).findIdx (same x) < (paths ++ [path]).findIdx (same y) := by
  refine h.ordered.imp_of_mem fun hx hy hlt ↦ ?_
  rwa [h.findIdx_concat hx, h.findIdx_concat hy]

theorem known (h : IsFirstsOf paths sources) {z : String} (hz : z ∈ sources)
    (hpath : components path = components z) : IsFirstsOf (paths ++ [path]) sources where
  mem_iff x := by
    rw [exists_split_concat, h.mem_iff]
    refine (or_iff_left ?_).symm
    rintro ⟨rfl, hnew⟩
    exact hnew z (h.mem_paths hz) hpath.symm
  complete p hp := by
    rcases List.mem_append.1 hp with hp | hp
    · exact h.complete p hp
    · rw [List.mem_singleton.1 hp]
      exact ⟨z, hz, hpath.symm⟩
  distinct := h.distinct
  ordered := h.ordered_concat

theorem new (h : IsFirstsOf paths sources)
    (hpath : ∀ z ∈ sources, components path ≠ components z) :
    IsFirstsOf (paths ++ [path]) (sources ++ [path]) := by
  have hnew : ∀ y ∈ paths, components y ≠ components path := by
    intro y hy heq
    obtain ⟨z, hz, hzy⟩ := h.complete y hy
    exact hpath z hz (hzy.trans heq).symm
  have hidx : (paths ++ [path]).findIdx (same path) = paths.length := by
    have hlen : paths.findIdx (same path) = paths.length :=
      List.findIdx_eq_length.2 fun y hy ↦
        Bool.eq_false_iff.2 fun hsame ↦ hnew y hy (same_iff.1 hsame).symm
    rw [List.findIdx_append, if_neg (by omega), List.findIdx_singleton, if_pos (same_iff.2 rfl),
      Nat.zero_add]
  constructor
  case mem_iff =>
    intro x
    rw [exists_split_concat, List.mem_append, List.mem_singleton, h.mem_iff]
    refine or_congr_right ⟨?_, And.left⟩
    rintro rfl
    exact ⟨rfl, hnew⟩
  case complete =>
    intro p hp
    rcases List.mem_append.1 hp with hp | hp
    · obtain ⟨x, hx, hxp⟩ := h.complete p hp
      exact ⟨x, List.mem_append_left _ hx, hxp⟩
    · exact ⟨path, by simp, by rw [List.mem_singleton.1 hp]⟩
  case distinct =>
    refine List.pairwise_append.2 ⟨h.distinct, List.pairwise_singleton _ _, fun x hx y hy ↦ ?_⟩
    rw [List.mem_singleton.1 hy]
    exact hnew x (h.mem_paths hx)
  case ordered =>
    refine List.pairwise_append.2 ⟨h.ordered_concat, List.pairwise_singleton _ _,
      fun x hx y hy ↦ ?_⟩
    rw [List.mem_singleton.1 hy, hidx, h.findIdx_concat hx]
    exact List.findIdx_lt_length_of_exists ⟨x, h.mem_paths hx, same_iff.2 rfl⟩

theorem addSource (h : IsFirstsOf paths sources) (path : String) :
    IsFirstsOf (paths ++ [path]) (addSource sources path) := by
  unfold CompileJob.addSource
  split
  · next hany =>
    obtain ⟨z, hz, hsame⟩ := List.any_eq_true.1 hany
    exact h.known hz (same_iff.1 hsame)
  · next hany =>
    refine h.new fun z hz heq ↦ hany ?_
    exact List.any_eq_true.2 ⟨z, hz, same_iff.2 heq⟩

end IsFirstsOf

theorem isFirstsOf_foldl (paths : List String) : IsFirstsOf paths (paths.foldl addSource []) := by
  induction paths using List.reverseRecOn with
  | nil => exact ⟨by simp, by simp, .nil, .nil⟩
  | append_singleton paths path ih =>
    rw [List.foldl_append]
    exact ih.addSource path

section Files

variable (f : Files) (m : Manifest)

def missing? (es : List EntryPoint) : Option EntryPoint :=
  es.find? fun e ↦ !f.isFile (m.sourcePath e)

variable {f m} in
theorem missing?_eq_none {es : List EntryPoint} :
    missing? f m es = none ↔ ∀ e ∈ es, f.isFile (m.sourcePath e) = true := by
  simp [missing?]

variable {f m} in
theorem missing?_eq_some {es : List EntryPoint} {e : EntryPoint} :
    missing? f m es = some e ↔ ∃ before after, es = before ++ e :: after ∧
      (∀ e' ∈ before, f.isFile (m.sourcePath e') = true) ∧
      f.isFile (m.sourcePath e) = false := by
  rw [missing?, List.find?_eq_some_iff_append]
  constructor
  · rintro ⟨he, before, after, hes, hbefore⟩
    exact ⟨before, after, hes, by simpa using hbefore, by simpa using he⟩
  · rintro ⟨before, after, hes, hbefore, he⟩
    exact ⟨by simpa using he, before, after, hes, by simpa using hbefore⟩

theorem sourcesOf_eq (sources : List String) (es : List EntryPoint) :
    sourcesOf f m sources es =
      match missing? f m es with
      | some e => .error (.sourceMissing e.key (m.sourcePath e))
      | none => .ok ((es.map m.sourcePath).foldl addSource sources) := by
  induction es generalizing sources with
  | nil => rfl
  | cons e es ih =>
    rw [sourcesOf, missing?, List.find?_cons]
    cases hfile : f.isFile (m.sourcePath e) with
    | true => exact ih _
    | false => rfl

theorem ofManifest_eq (outFile : String) :
    ofManifest f m outFile =
      match missing? f m m.exposes with
      | some e => .error (.sourceMissing e.key (m.sourcePath e))
      | none =>
        .ok ⟨(m.exposes.map m.sourcePath).foldl addSource [], m.directory, outFile, {}⟩ := by
  rw [ofManifest, sourcesOf_eq]
  cases missing? f m m.exposes <;> rfl

variable {f m} in
theorem ofManifest_eq_ok_iff {outFile : String} {j : CompileJob} :
    ofManifest f m outFile = .ok j ↔ (∀ e ∈ m.exposes, f.isFile (m.sourcePath e) = true) ∧
      j = ⟨(m.exposes.map m.sourcePath).foldl addSource [], m.directory, outFile, {}⟩ := by
  rw [ofManifest_eq, ← missing?_eq_none]
  cases missing? f m m.exposes <;> simp [eq_comm]

/-- A job is made just where every exposed path is that of a file. Its sources are the files, each
once and in the order in which they are exposed first. Else the error names the first path in the
manifest that is not one of a file. -/
theorem ofManifest_iff (outFile : String) :
    ∃ sources, IsFirstsOf (m.exposes.map m.sourcePath) sources ∧
      (∀ j, ofManifest f m outFile = .ok j ↔
        (∀ e ∈ m.exposes, f.isFile (m.sourcePath e) = true) ∧
          j = ⟨sources, m.directory, outFile, {}⟩) ∧
      ∀ problem, ofManifest f m outFile = .error problem ↔
        ∃ before e after, m.exposes = before ++ e :: after ∧
          (∀ e' ∈ before, f.isFile (m.sourcePath e') = true) ∧
          f.isFile (m.sourcePath e) = false ∧
          problem = .sourceMissing e.key (m.sourcePath e) := by
  have hproblem (problem : ManifestProblem) : (∃ before e after,
      m.exposes = before ++ e :: after ∧ (∀ e' ∈ before, f.isFile (m.sourcePath e') = true) ∧
        f.isFile (m.sourcePath e) = false ∧ problem = .sourceMissing e.key (m.sourcePath e)) ↔
      ∃ e, missing? f m m.exposes = some e ∧
        problem = .sourceMissing e.key (m.sourcePath e) := by
    simp only [missing?_eq_some]
    constructor
    · rintro ⟨before, e, after, hes, hbefore, he, h⟩
      exact ⟨e, ⟨before, after, hes, hbefore, he⟩, h⟩
    · rintro ⟨e, ⟨before, after, hes, hbefore, he⟩, h⟩
      exact ⟨before, e, after, hes, hbefore, he, h⟩
  refine ⟨_, isFirstsOf_foldl _, fun j ↦ ofManifest_eq_ok_iff, fun problem ↦ ?_⟩
  rw [ofManifest_eq, hproblem]
  cases missing? f m m.exposes <;> simp [eq_comm]

end Files

end AmbientTypes.CompileJob
