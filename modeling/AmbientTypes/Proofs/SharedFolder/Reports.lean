import AmbientTypes.Proofs.SharedFolder.Concurrent
import AmbientTypes.Proofs.Tree.Keeping
import Mathlib.Data.List.Nodup

namespace AmbientTypes.SharedFolder

open Manifest (IsAccepted)

theorem indexAfter_empty {names : List String} (h : names.Nodup) :
    indexAfter "" names = String.join (names.map ("export * from './" ++ · ++ "';\n")) := by
  have hunlisted : unlisted "" names = names := by
    induction names using List.reverseRecOn with
    | nil => rfl
    | append_singleton names n ih =>
      obtain ⟨hnames, -, hn⟩ := List.nodup_append.1 h
      have hnew : ¬ (n ∈ names ∨ Lists "" n) := by
        rw [or_iff_left (not_lists_empty n)]
        exact fun hmem ↦ hn n hmem n (List.mem_singleton_self n) rfl
      rw [unlisted_concat, ih hnames, if_neg hnew]
  rw [indexAfter]
  split
  · next hnil =>
    obtain rfl : names = [] := hunlisted.symm.trans hnil
    rfl
  · rw [hunlisted]
    simp [closing]

/-- What a call has found out, or reports, of whether the index was there before it. -/
def Stage.existed? : Stage → Option Bool
  | .start => none
  | .checked existed | .opened existed _ | .locked existed _ | .read existed _ _ => some existed
  | .leaving _ r | .finished r =>
    match r with
    | .ok .created => some false
    | .ok .appended => some true
    | .ok .unchanged | .error _ => none

/-- The call has nothing to do any more but to leave. -/
def Stage.IsDone : Stage → Prop
  | .leaving .. | .finished _ => True
  | _ => False

namespace Calls

variable {ι : Type} {f g : Files} {d : Location} {s dir : String} {bytes : ByteArray}
  {log : List ι} {i j : ι} {name : ι → String} {stage : Stage} {b c c' : Calls ι} {existed : Bool}

/-- Who has added a line has nothing more to do, and reports it. -/
def Stands (added : Prop) : Stage → Prop
  | .leaving _ r | .finished r => added ∧ (r = .ok .created ∨ r = .ok .appended)
  | _ => ¬ added

/-- The calls of `log`, and no others, have added their lines to an index that was missing. -/
structure Adding (f : Files) (d : Location) (s : String) (name : ι → String) (log : List ι)
    (c : Calls ι) : Prop where
  opened : Opened f d s "" name log c
  nodup : log.Nodup
  stages : ∀ i, Stands (i ∈ log) (c.stage i)

namespace Adding

theorem of_opened (ho : Opened f d s "" name [] c) : Adding f d s name [] c := by
  refine ⟨ho, List.nodup_nil, fun i ↦ ?_⟩
  have hi := ho.stages i
  cases h : c.stage i with
  | leaving =>
    rw [h] at hi
    cases hi.2.2.1
  | finished =>
    rw [h] at hi
    cases hi.1
  | _ => exact List.not_mem_nil

theorem isDone_iff (ha : Adding f d s name log c) : (c.stage i).IsDone ↔ i ∈ log := by
  have hi := ha.stages i
  cases h : c.stage i with
  | leaving | finished =>
    rw [h] at hi
    exact iff_of_true trivial hi.1
  | _ =>
    rw [h] at hi
    exact iff_of_false id hi

theorem pathExists (hf : f.openOrCreate (Path.join dir indexName) = .ok (d ++ [s], bytes, g))
    (ha : Adding f d s name log c) : c.files.pathExists (Path.join dir indexName) = true := by
  obtain ⟨k, -, hset⟩ := ha.opened.files
  rw [Files.pathExists_of_openOrCreate (Files.openOrCreate_again hf hset), hset.self]
  rfl

theorem text (ha : Adding f d s name log c) (hinj : Function.Injective name) :
    c.files.textAt? (d ++ [s]) =
      some (String.join (log.map fun i ↦ "export * from './" ++ name i ++ "';\n")) := by
  obtain ⟨k, hk, hset⟩ := ha.opened.files
  rw [Files.textAt?, hset.self]
  refine (congrArg Text.ofUtf8? hk).trans ?_
  rw [Text.ofUtf8?_toUTF8, indexAfter_empty (ha.nodup.map hinj), List.map_map]
  rfl

/-- A call that has not added its line finds that it is missing. -/
theorem indexAddition?_ne_none {l : Location} {contents : String}
    (ha : Adding f d s name log c) (hnames : ∀ i, IsAccepted (name i))
    (hinj : Function.Injective name) (hi : c.stage i = .read existed l (some contents)) :
    indexAddition? contents (name i) ≠ none := by
  have hagrees := ha.opened.stages i
  have hstands := ha.stages i
  rw [hi] at hagrees hstands
  obtain rfl := Option.some.inj hagrees.2.2
  have hlog : ∀ n ∈ log.map name, IsAccepted n := by
    intro n hn
    obtain ⟨j, -, rfl⟩ := List.mem_map.1 hn
    exact hnames j
  rw [indexAddition?_eq, if_neg]
  · nofun
  · rw [lists_indexAfter (hnames i) hlog, List.mem_map_of_injective hinj]
    exact not_or.2 ⟨not_lists_empty _, hstands⟩

end Adding

variable [DecidableEq ι]

theorem forall_stage_move {P : ι → Stage → Prop} (h : ∀ j, P j (c.stage j)) (hi : P i stage) :
    ∀ j, P j ((c.move i stage).stage j) := by
  intro j
  by_cases hj : j = i
  · rw [hj, stage_move_self]
    exact hi
  · rw [stage_move_of_ne c stage hj]
    exact h j

namespace Adding

theorem move (ha : Adding f d s name log c) (hb : b.stage = c.stage)
    (ho : Opened f d s "" name log (b.move i stage)) (hi : Stands (i ∈ log) stage) :
    Adding f d s name log (b.move i stage) :=
  ⟨ho, ha.nodup, forall_stage_move (P := fun j ↦ Stands (j ∈ log)) (fun j ↦ hb ▸ ha.stages j) hi⟩

/-- A call that adds its line comes last among those that have. -/
theorem concat (ha : Adding f d s name log c) (hb : b.stage = c.stage)
    (ho : Opened f d s "" name (log ++ [i]) (b.move i stage)) (hnew : i ∉ log)
    (hi : Stands True stage) : Adding f d s name (log ++ [i]) (b.move i stage) := by
  refine ⟨ho, List.nodup_append.2 ⟨ha.nodup, List.nodup_singleton i, ?_⟩, fun j ↦ ?_⟩
  · rintro j hj _ hmem rfl
    exact hnew (List.mem_singleton.1 hmem ▸ hj)
  · by_cases hj : j = i
    · have hmem : (i ∈ log ++ [i]) = True := by simp
      rw [hj, stage_move_self, hmem]
      exact hi
    · have hmem : (j ∈ log ++ [i]) = (j ∈ log) := by simp [hj]
      rw [stage_move_of_ne b stage hj, hb, hmem]
      exact ha.stages j

theorem step (hnames : ∀ i, IsAccepted (name i)) (hinj : Function.Injective name)
    (hf : f.openOrCreate (Path.join dir indexName) = .ok (d ++ [s], bytes, g))
    (ha : Adding f d s name log c) (hs : Step dir name c c') :
    ∃ log', log <+: log' ∧ Adding f d s name log' c' := by
  have hstands (i : ι) {stage : Stage} (hi : c.stage i = stage) : Stands (i ∈ log) stage :=
    hi ▸ ha.stages i
  have ho := ha.opened
  cases hs with
  | checks hi =>
    have h := hstands _ hi
    exact ⟨log, List.prefix_refl log, ha.move rfl (ho.quiet trivial) h⟩
  | opens hi hopen =>
    have h := hstands _ hi
    exact ⟨log, List.prefix_refl log, ha.move (b := c.setFiles _) rfl (Opened.opens hf ho hopen) h⟩
  | fails hi hfail =>
    obtain ⟨k, -, hset⟩ := ho.files
    rw [Files.openOrCreate_again hf hset] at hfail
    cases hfail
  | locks hi hfree =>
    have h := hstands _ hi
    exact ⟨log, List.prefix_refl log, ha.move (b := c.setHolder _ _) rfl (ho.locks hi hfree) h⟩
  | reads hi hget =>
    have h := hstands _ hi
    exact ⟨log, List.prefix_refl log, ha.move rfl (ho.reads hi hget) h⟩
  | @refuses i existed l hi =>
    have hagrees := ho.stages i
    rw [hi] at hagrees
    cases hagrees.2.2
  | skips hi hadd => exact absurd hadd (ha.indexAddition?_ne_none hnames hinj hi)
  | @appends i existed _ _ _ _ hi hadd hget =>
    have hnew := hstands i hi
    refine ⟨log ++ [i], List.prefix_append log [i], ?_⟩
    refine ha.concat (b := c.setFiles _) rfl (Opened.appends hnames ho hi hadd hget) hnew
      ⟨trivial, ?_⟩
    cases existed
    · exact .inl rfl
    · exact .inr rfl
  | releases hi =>
    have h := hstands _ hi
    exact ⟨log, List.prefix_refl log, ha.move (b := c.setHolder _ _) rfl (ho.releases hi) h⟩

theorem run (hnames : ∀ i, IsAccepted (name i)) (hinj : Function.Injective name)
    (hf : f.openOrCreate (Path.join dir indexName) = .ok (d ++ [s], bytes, g))
    (ha : Adding f d s name log b) (h : Run dir name b c) :
    ∃ log', log <+: log' ∧ Adding f d s name log' c := by
  induction h with
  | refl => exact ⟨log, List.prefix_refl log, ha⟩
  | step _ hs ih =>
    obtain ⟨log₁, hlog₁, ha₁⟩ := ih
    obtain ⟨log₂, hlog₂, ha₂⟩ := ha₁.step hnames hinj hf hs
    exact ⟨log₂, hlog₁.trans hlog₂, ha₂⟩

end Adding

/-- A step takes one call on. The call learns of the index when it asks for it, and at no other
step. -/
theorem Step.stages (hs : Step dir name c c') :
    ∃ i stage, c'.stage = Function.update c.stage i stage ∧ stage ≠ .start ∧
      ∀ existed, stage.existed? = some existed → (c.stage i).existed? = some existed ∨
        c.stage i = .start ∧ c.files.pathExists (Path.join dir indexName) = existed := by
  cases hs with
  | checks hi => exact ⟨_, _, rfl, nofun, fun _ h ↦ .inr ⟨hi, Option.some.inj h⟩⟩
  | opens hi | locks hi | reads hi => exact ⟨_, _, rfl, nofun, fun _ h ↦ .inl (hi ▸ h)⟩
  | releases hi => exact ⟨_, _, rfl, nofun, fun _ h ↦ .inl (hi ▸ h)⟩
  | fails | refuses | skips => exact ⟨_, _, rfl, nofun, nofun⟩
  | @appends i known _ _ _ _ hi =>
    refine ⟨_, _, rfl, nofun, fun _ h ↦ .inl ?_⟩
    rw [hi]
    cases known <;> exact h

theorem existed?_step (hs : Step dir name c c') (h : (c'.stage i).existed? = some existed) :
    (c.stage i).existed? = some existed ∨
      c.stage i = .start ∧ c.files.pathExists (Path.join dir indexName) = existed := by
  obtain ⟨j, stage, hstage, -, hj⟩ := hs.stages
  rw [hstage] at h
  by_cases hij : i = j
  · rw [hij, Function.update_self] at h
    exact hij ▸ hj existed h
  · rw [Function.update_of_ne hij] at h
    exact .inl h

theorem start_of_run (h : Run dir name b c) (hc : c.stage i = .start) : b.stage i = .start := by
  induction h with
  | refl => exact hc
  | step _ hs ih =>
    obtain ⟨j, stage, hstage, hne, -⟩ := hs.stages
    rw [hstage] at hc
    by_cases hij : i = j
    · rw [hij, Function.update_self] at hc
      exact absurd hc hne
    · rw [Function.update_of_ne hij] at hc
      exact ih hc

/-- What a call knows it knew before, or it has asked since. -/
theorem existed?_run (h : Run dir name b c) (hc : (c.stage i).existed? = some existed) :
    (b.stage i).existed? = some existed ∨ b.stage i = .start ∧ ∃ b', Run dir name b b' ∧
      Run dir name b' c ∧ b'.files.pathExists (Path.join dir indexName) = existed := by
  induction h with
  | refl => exact .inl hc
  | step h hs ih =>
    rcases existed?_step hs hc with hc | ⟨hi, hexists⟩
    · rcases ih hc with hb | ⟨hb, b', hbefore, hafter, hexists⟩
      · exact .inl hb
      · exact .inr ⟨hb, b', hbefore, hafter.step hs, hexists⟩
    · exact .inr ⟨start_of_run h hi, _, h, .step .refl hs, hexists⟩

/-- A call opens an index that no call has opened, and has asked for it before. -/
theorem Unopened.adding_step (hu : Unopened f c)
    (hf : f.openOrCreate (Path.join dir indexName) = .ok (d ++ [s], bytes, g))
    (hg : ∃ k : File, k.bytes = "".toUTF8 ∧ Files.Sets f d s (some (.file k)) g)
    (hs : Step dir name c c') :
    Unopened f c' ∨ Adding f d s name [] c' ∧ ∃ i, c.stage i ≠ .start := by
  have hwaits (i : ι) {stage : Stage} (hi : c.stage i = stage) :
      stage = .start ∨ ∃ existed, stage = .checked existed := by
    rw [← hi]
    exact hu.stages i
  cases hs with
  | checks hi => exact .inl (hu.checks _ _)
  | @opens i existed l _ _ hi hopen =>
    have hs : Step dir name c _ := .opens hi hopen
    rcases hu.step hf hg hs with hu' | ho
    · have hstage := hu'.stages i
      simp at hstage
    · exact .inr ⟨.of_opened ho, i, hi ▸ nofun⟩
  | fails hi hfail =>
    rw [hu.files, hf] at hfail
    cases hfail
  | locks hi | reads hi | refuses hi | skips hi | appends hi | releases hi =>
    simpa using hwaits _ hi

section Missing

variable (hnames : ∀ i, IsAccepted (name i)) (hinj : Function.Injective name)
  (hf : f.openOrCreate (Path.join dir indexName) = .ok (d ++ [s], bytes, g))
  (hg : ∃ k : File, k.bytes = "".toUTF8 ∧ Files.Sets f d s (some (.file k)) g)
include hnames hinj hf hg

/-- As long as the index is missing no call has opened it, and then some call has asked before. -/
theorem adding_run (h : Run dir name (start f) c) :
    Unopened f c ∨ (∃ log, Adding f d s name log c) ∧ ∃ b i, Run dir name (start f) b ∧
      Run dir name b c ∧ Unopened f b ∧ b.stage i ≠ .start := by
  induction h with
  | refl => exact .inl ⟨rfl, fun _ ↦ .inl rfl⟩
  | @step c₁ c₂ h hs ih =>
    rcases ih with hu | ⟨⟨log, ha⟩, b, i, hbefore, hafter, hb⟩
    · refine (hu.adding_step hf hg hs).imp_right fun ⟨ha, i, hi⟩ ↦ ?_
      exact ⟨⟨[], ha⟩, c₁, i, h, .step .refl hs, hu, hi⟩
    · obtain ⟨log', -, ha'⟩ := ha.step hnames hinj hf hs
      exact .inr ⟨⟨log', ha'⟩, b, i, hbefore, hafter.step hs, hb⟩

variable (hmissing : f.pathExists (Path.join dir indexName) = false)
include hmissing

theorem exists_adding (hb : Run dir name (start f) b)
    (hexists : b.files.pathExists (Path.join dir indexName) = true) :
    ∃ log, Adding f d s name log b := by
  rcases adding_run hnames hinj hf hg hb with hu | ⟨ha, -⟩
  · rw [hu.files, hmissing] at hexists
    cases hexists
  · exact ha

/-- The index stays once it is there. -/
theorem pathExists_run (hb : Run dir name (start f) b) (h : Run dir name b c)
    (hexists : b.files.pathExists (Path.join dir indexName) = true) :
    c.files.pathExists (Path.join dir indexName) = true := by
  obtain ⟨log, ha⟩ := exists_adding hnames hinj hf hg hmissing hb hexists
  obtain ⟨log', -, ha'⟩ := ha.run hnames hinj hf h
  exact ha'.pathExists hf

theorem existed?_of_missing (hb : Run dir name (start f) b) (h : Run dir name b c)
    (hbefore : b.files.pathExists (Path.join dir indexName) = false) (hi : b.stage i ≠ .start)
    (hc : (c.stage i).existed? = some existed) : existed = false := by
  obtain hbi | ⟨hbi, -⟩ := existed?_run h hc
  · obtain hnone | ⟨-, b', hb', hafter, rfl⟩ := existed?_run hb hbi
    · cases hnone
    · -- It would have found the index before `b`, where the index is still missing.
      by_contra hexists
      rw [Bool.not_eq_false] at hexists
      have hthere := pathExists_run hnames hinj hf hg hmissing hb' hafter hexists
      rw [hbefore] at hthere
      cases hthere
  · exact absurd hbi hi

theorem existed?_of_exists (hb : Run dir name (start f) b) (h : Run dir name b c)
    (hbefore : b.files.pathExists (Path.join dir indexName) = true) (hi : b.stage i = .start)
    (hc : (c.stage i).existed? = some existed) : existed = true := by
  obtain hbi | ⟨-, b', hafter, -, rfl⟩ := existed?_run h hc
  · rw [hi] at hbi
    cases hbi
  · exact pathExists_run hnames hinj hf hg hmissing hb hafter hbefore

end Missing

/-- What calls report that have all finished, and that came by `b`. The lines are those of `log`,
where whoever has added a line comes before whoever has not. -/
structure Reported (dir : String) (name : ι → String) (l : Location) (log : List ι)
    (b c : Calls ι) : Prop where
  told : ∀ i, c.stage i = .finished (.ok .created) ∨ c.stage i = .finished (.ok .appended)
  some_created : Nonempty ι → ∃ i, c.stage i = .finished (.ok .created)
  appended : b.files.pathExists (Path.join dir indexName) = true → ∀ i, b.stage i = .start →
    c.stage i = .finished (.ok .appended)
  complete : ∀ i, i ∈ log
  nodup : log.Nodup
  text : c.files.textAt? l =
    some (String.join (log.map fun i ↦ "export * from './" ++ name i ++ "';\n"))
  ordered : ∀ i j, (b.stage i).IsDone → ¬ (b.stage j).IsDone → [i, j].Sublist log
  alone : ∀ i, (b.stage i).IsDone → (∀ j ≠ i, b.stage j = .start) →
    (∀ j, c.stage j = .finished (.ok .created) ↔ j = i) ∧ log.head? = some i

omit [DecidableEq ι] in
theorem Adding.told (ha : Adding f d s name log c) (hi : ∃ r, c.stage i = .finished r) :
    c.stage i = .finished (.ok .created) ∨ c.stage i = .finished (.ok .appended) := by
  obtain ⟨r, hr⟩ := hi
  have hstands := ha.stages i
  rw [hr] at hstands
  rw [hr]
  exact hstands.2.imp (congrArg _) (congrArg _)

omit [DecidableEq ι] in
theorem created_iff (hsome : ∃ j, c.stage j = .finished (.ok .created))
    (hothers : ∀ j ≠ i, c.stage j = .finished (.ok .appended)) (j : ι) :
    c.stage j = .finished (.ok .created) ↔ j = i := by
  have honly {j : ι} (hj : c.stage j = .finished (.ok .created)) : j = i := by
    by_contra hne
    have hother := hothers j hne
    rw [hj] at hother
    cases hother
  obtain ⟨i', hi'⟩ := hsome
  refine ⟨honly, ?_⟩
  rintro rfl
  exact honly hi' ▸ hi'

omit [DecidableEq ι] in
theorem head?_append_of_forall {rest : List ι} (hi : i ∈ log) (honly : ∀ j ∈ log, j = i) :
    (log ++ rest).head? = some i := by
  obtain ⟨j, rest', rfl⟩ := List.exists_cons_of_ne_nil (List.ne_nil_of_mem hi)
  exact congrArg some (honly j List.mem_cons_self)

omit [DecidableEq ι] in
theorem Unopened.not_isDone (hu : Unopened f c) : ¬ (c.stage i).IsDone := by
  rcases hu.stages i with hi | ⟨existed, hi⟩
  · exact hi ▸ id
  · exact hi ▸ id

section Missing

variable (hnames : ∀ i, IsAccepted (name i)) (hinj : Function.Injective name)
  (hf : f.openOrCreate (Path.join dir indexName) = .ok (d ++ [s], bytes, g))
  (hg : ∃ k : File, k.bytes = "".toUTF8 ∧ Files.Sets f d s (some (.file k)) g)
include hnames hinj hf hg

theorem pathExists_of_isDone (hb : Run dir name (start f) b) (hi : (b.stage i).IsDone) :
    b.files.pathExists (Path.join dir indexName) = true := by
  rcases adding_run hnames hinj hf hg hb with hu | ⟨⟨log, ha⟩, -⟩
  · exact absurd hi hu.not_isDone
  · exact ha.pathExists hf

/-- The lines that are there by `b` stay the first ones. -/
theorem exists_log (hb : Run dir name (start f) b) (h : Run dir name b c)
    (ha : ∃ log, Adding f d s name log c) :
    ∃ log₀ log, log₀ <+: log ∧ (∀ i, (b.stage i).IsDone ↔ i ∈ log₀) ∧ Adding f d s name log c := by
  rcases adding_run hnames hinj hf hg hb with hu | ⟨⟨log₀, hb₀⟩, -⟩
  · obtain ⟨log, ha⟩ := ha
    exact ⟨[], log, List.nil_prefix, fun i ↦ iff_of_false hu.not_isDone List.not_mem_nil, ha⟩
  · obtain ⟨log, hlog, ha⟩ := hb₀.run hnames hinj hf h
    exact ⟨log₀, log, hlog, fun i ↦ hb₀.isDone_iff, ha⟩

variable (hmissing : f.pathExists (Path.join dir indexName) = false)
include hmissing

theorem reported_of_adding (hb : Run dir name (start f) b) (h : Run dir name b c)
    (hdone : ∀ i, ∃ r, c.stage i = .finished r) (ha : ∃ log, Adding f d s name log c)
    (hfirst : ∃ b₀ i₀, Run dir name (start f) b₀ ∧ Run dir name b₀ c ∧ Unopened f b₀ ∧
      b₀.stage i₀ ≠ .start) : ∃ log, Reported dir name (d ++ [s]) log b c := by
  obtain ⟨log₀, log, ⟨rest, rfl⟩, hlog₀, ha⟩ := exists_log hnames hinj hf hg hb h ha
  have htold (i : ι) := ha.told (hdone i)
  have hcomplete (i : ι) : i ∈ log₀ ++ rest := by
    obtain ⟨r, hr⟩ := hdone i
    exact ha.isDone_iff.1 (hr ▸ trivial)
  have hsome : ∃ i, c.stage i = .finished (.ok .created) := by
    obtain ⟨b₀, i₀, hb₀, hafter, hu, hi₀⟩ := hfirst
    have hbefore : b₀.files.pathExists (Path.join dir indexName) = false := hu.files ▸ hmissing
    refine ⟨i₀, (htold i₀).resolve_right fun hi ↦ ?_⟩
    cases existed?_of_missing hnames hinj hf hg hmissing hb₀ hafter hbefore hi₀
      (congrArg Stage.existed? hi)
  have happended (hexists : b.files.pathExists (Path.join dir indexName) = true) (i : ι)
      (hi : b.stage i = .start) : c.stage i = .finished (.ok .appended) := by
    refine (htold i).resolve_left fun hc ↦ ?_
    cases existed?_of_exists hnames hinj hf hg hmissing hb h hexists hi
      (congrArg Stage.existed? hc)
  refine ⟨log₀ ++ rest, htold, fun _ ↦ hsome, happended, hcomplete, ha.nodup, ha.text hinj, ?_, ?_⟩
  · intro i j hi hj
    have hjrest : j ∈ rest := (List.mem_append.1 (hcomplete j)).resolve_left (mt (hlog₀ j).2 hj)
    exact List.Sublist.append (List.singleton_sublist.2 ((hlog₀ i).1 hi))
      (List.singleton_sublist.2 hjrest)
  · intro i hi hothers
    have hexists := pathExists_of_isDone hnames hinj hf hg hb hi
    refine ⟨created_iff hsome fun j hj ↦ happended hexists j (hothers j hj),
      head?_append_of_forall ((hlog₀ i).1 hi) fun j hj ↦ ?_⟩
    by_contra hne
    have hjdone := (hlog₀ j).2 hj
    rw [hothers j hne] at hjdone
    exact hjdone

end Missing

/-- Calls that begin while the index is missing, each for a package of its own, all add their lines
when they finish, or all fail where the index cannot be made. -/
theorem reported_of_finished (hnames : ∀ i, IsAccepted (name i)) (hinj : Function.Injective name)
    (hmissing : f.pathExists (Path.join dir indexName) = false)
    (hb : Run dir name (start f) b) (h : Run dir name b c)
    (hdone : ∀ i, ∃ r, c.stage i = .finished r) :
    (∀ l contents, indexAt? f dir = some (l, contents) → ∃ log, Reported dir name l log b c) ∧
      (indexAt? f dir = none → c.files = f ∧ ∀ i, ∃ e, c.stage i = .finished (.error e)) := by
  constructor
  · intro l contents hl
    obtain ⟨d, s, bytes, g, rfl, hf, hg, htext⟩ := exists_openOrCreate hl
    have hempty : f.textAt? (d ++ [s]) = some "" := by
      rw [Files.pathExists_of_openOrCreate hf] at hmissing
      rw [Files.textAt?, Option.isNone_iff_eq_none.1 (Option.isSome_eq_false_iff.1 hmissing)]
    obtain rfl : "" = contents := Option.some.inj (hempty.symm.trans htext)
    rcases adding_run hnames hinj hf hg (hb.trans h) with hu | ⟨ha, hfirst⟩
    · have hnone (i : ι) : False := by
        obtain ⟨r, hr⟩ := hdone i
        exact hu.not_isDone (i := i) (hr ▸ trivial)
      exact ⟨[], fun i ↦ (hnone i).elim, fun hι ↦ (hι.elim hnone).elim, fun _ i ↦ (hnone i).elim,
        fun i ↦ (hnone i).elim, List.nodup_nil, hu.files ▸ htext, fun i ↦ (hnone i).elim,
        fun i ↦ (hnone i).elim⟩
    · exact reported_of_adding hnames hinj hf hg hmissing hb h hdone ha hfirst
  · intro hnone
    have hr := Refusing.run hnone (hb.trans h)
    refine ⟨hr.files, fun i ↦ ?_⟩
    obtain ⟨r, hi⟩ := hdone i
    have hrefused := hr.stages i
    rw [hi] at hrefused
    obtain ⟨e, rfl⟩ := hrefused
    exact ⟨e, hi⟩

/-- A call that has asked for the index goes on to its end without a break. -/
theorem Run.adds {l : Location} {contents addition : String}
    (h : Run dir name b c) (hi : c.stage i = .checked existed)
    (hopen : c.files.openOrCreate (Path.join dir indexName) = .ok (l, bytes, g))
    (htext : Text.ofUtf8? bytes = some contents)
    (hadd : indexAddition? contents (name i) = some addition) (hfree : c.holder l = none) :
    Run dir name b ((c.setFiles (g.putBytes l (bytes ++ addition.toUTF8))).move i
      (.finished (.ok (if existed then .appended else .created)))) := by
  obtain ⟨k, hk, rfl⟩ := get?_of_openOrCreate hopen
  have hread := Run.reads (b := c.setFiles g) (h.step (.opens hi hopen)) hfree hk
  rw [htext] at hread
  exact hread.finishes (.appends (stage_move_self ..) hadd hk) hfree

section Example

def unindexed : Files where
  tree := .folder [("types", .folder [])]

def indexedWith (text : String) : Files where
  tree := .folder [("types", .folder [(indexName, .file ⟨text.toUTF8, none⟩)])]

def shopOrCart : Bool → String
  | true => "shop"
  | false => "cart"

theorem isAccepted_shopOrCart : ∀ i, IsAccepted (shopOrCart i)
  | true => isAccepted_shop
  | false => Manifest.nameFault?_eq_none.1 (by decide +kernel)

theorem injective_shopOrCart : Function.Injective shopOrCart := by
  unfold Function.Injective
  decide

variable {b c : Calls Bool}

theorem shop_adds (h : Run "types" shopOrCart b c) (hi : c.stage true = .checked existed)
    (hfiles : c.files = unindexed) (hfree : ∀ l, c.holder l = none) :
    Run "types" shopOrCart b ((c.setFiles (indexedWith "export * from './shop';\n")).move true
      (.finished (.ok (if existed then .appended else .created)))) := by
  have hopen : c.files.openOrCreate (Path.join "types" indexName) =
      .ok (["types", indexName], "".toUTF8, indexedWith "") := by
    rw [hfiles]
    rfl
  have hadd : indexAddition? "" (shopOrCart true) = some "export * from './shop';\n" := by
    decide +kernel
  exact h.adds hi hopen (Text.ofUtf8?_toUTF8 _) hadd (hfree _)

theorem cart_adds (h : Run "types" shopOrCart b c) (hi : c.stage false = .checked existed)
    (hfiles : c.files = indexedWith "export * from './shop';\n") (hfree : ∀ l, c.holder l = none) :
    Run "types" shopOrCart b
      ((c.setFiles (indexedWith "export * from './shop';\nexport * from './cart';\n")).move false
        (.finished (.ok (if existed then .appended else .created)))) := by
  have hopen : c.files.openOrCreate (Path.join "types" indexName) =
      .ok (["types", indexName], "export * from './shop';\n".toUTF8,
        indexedWith "export * from './shop';\n") := by
    rw [hfiles]
    rfl
  have hadd : indexAddition? "export * from './shop';\n" (shopOrCart false) =
      some "export * from './cart';\n" := by
    decide +kernel
  have hadds := h.adds hi hopen (Text.ofUtf8?_toUTF8 _) hadd (hfree _)
  have htext : "export * from './shop';\n" ++ "export * from './cart';\n" =
      "export * from './shop';\nexport * from './cart';\n" := by
    decide +kernel
  rwa [← Text.toUTF8_append, htext] at hadds

theorem isMissing_unindexed : unindexed.pathExists (Path.join "types" indexName) = false := by
  decide

theorem indexAt?_unindexed : indexAt? unindexed "types" = some (["types", indexName], "") := by
  decide +kernel

/-- One call begins when the other has finished. -/
theorem reported_of_finished_shopOrCart : ∃ c : Calls Bool,
    Run "types" shopOrCart (start unindexed) c ∧ c.stage true = .finished (.ok .created) ∧
      c.stage false = .finished (.ok .appended) ∧
      c.files.textAt? ["types", indexName] =
        some "export * from './shop';\nexport * from './cart';\n" := by
  obtain ⟨b, hb, hshop, hcart, hfiles, hfree⟩ : ∃ b, Run "types" shopOrCart (start unindexed) b ∧
      b.stage true = .finished (.ok .created) ∧ b.stage false = .start ∧
      b.files = indexedWith "export * from './shop';\n" ∧ ∀ l, b.holder l = none := by
    have hasked : Run "types" shopOrCart (start unindexed) _ :=
      .step .refl (.checks (i := true) rfl)
    exact ⟨_, shop_adds hasked rfl rfl fun _ ↦ rfl, rfl, rfl, rfl, fun _ ↦ rfl⟩
  have h := cart_adds (.step .refl (.checks hcart)) (stage_move_self ..) hfiles hfree
  obtain ⟨log, hlog⟩ := (reported_of_finished isAccepted_shopOrCart injective_shopOrCart
    isMissing_unindexed hb h (Bool.forall_bool.2 ⟨⟨_, rfl⟩, ⟨_, hshop⟩⟩)).1 _ _ indexAt?_unindexed
  obtain ⟨hcreated, hhead⟩ := hlog.alone true (hshop ▸ trivial)
    (Bool.forall_bool.2 ⟨fun _ ↦ hcart, by simp⟩)
  obtain ⟨rest, rfl⟩ : ∃ rest, log = true :: rest := List.head?_eq_some_iff.1 hhead
  have hrest : (true :: rest).Perm [true, false] :=
    (List.perm_ext_iff_of_nodup hlog.nodup (by decide)).2 fun i ↦ by simp [hlog.complete i]
  obtain rfl : rest = [false] := List.perm_singleton.1 ((List.perm_cons true).1 hrest)
  refine ⟨_, hb.trans h, (hcreated true).2 rfl, ?_, hlog.text.trans (by decide +kernel)⟩
  exact (hlog.told false).resolve_left fun hfalse ↦ by simpa using (hcreated false).1 hfalse

/-- Both ask for the index before one of them makes it. -/
theorem exists_both_created : ∃ c : Calls Bool, Run "types" shopOrCart (start unindexed) c ∧
    ∀ i, c.stage i = .finished (.ok .created) := by
  have hasked : Run "types" shopOrCart (start unindexed) _ :=
    .step (.step .refl (.checks (i := true) rfl)) (.checks (i := false) rfl)
  have hshop := shop_adds hasked rfl rfl fun _ ↦ rfl
  have hcart := cart_adds hshop rfl rfl fun _ ↦ rfl
  exact ⟨_, hcart, Bool.forall_bool.2 ⟨rfl, rfl⟩⟩

/-- Not always does one call report that it made the index, and every other one that it added to
it. -/
theorem not_only_one_created : ¬ ∀ (ι : Type) [DecidableEq ι] [Nonempty ι] (dir : String)
    (f : Files) (name : ι → String) (c : Calls ι), (∀ i, IsAccepted (name i)) →
    Function.Injective name → f.pathExists (Path.join dir indexName) = false →
    indexAt? f dir ≠ none → Run dir name (start f) c → (∀ i, ∃ r, c.stage i = .finished r) →
    ∃ i, c.stage i = .finished (.ok .created) ∧
      ∀ j ≠ i, c.stage j = .finished (.ok .appended) := by
  intro hclaim
  obtain ⟨c, hrun, hboth⟩ := exists_both_created
  obtain ⟨i, -, hothers⟩ := hclaim Bool "types" unindexed shopOrCart c isAccepted_shopOrCart
    injective_shopOrCart isMissing_unindexed (by simp [indexAt?_unindexed]) hrun
    fun i ↦ ⟨_, hboth i⟩
  have hother := hothers (!i) (by simp)
  rw [hboth] at hother
  cases hother

end Example

end Calls

end AmbientTypes.SharedFolder
