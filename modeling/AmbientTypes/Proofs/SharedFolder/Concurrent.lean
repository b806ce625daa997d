import AmbientTypes.Proofs.SharedFolder.Calls
import AmbientTypes.Proofs.SharedFolder.Sequence
import AmbientTypes.Proofs.Tree.Opening

namespace AmbientTypes.SharedFolder

open Manifest (IsAccepted)

/-- The index that opening it gives, and its text; nothing where it cannot be opened or holds no
text. -/
def indexAt? (f : Files) (dir : String) : Option (Location × String) :=
  match f.openOrCreate (Path.join dir indexName) with
  | .ok (l, bytes, _) => (Text.ofUtf8? bytes).map (l, ·)
  | .error _ => none

namespace Calls

variable {ι : Type} {f g : Files} {d : Location} {s contents text text' dir : String}
  {holder holder' : Option ι} {log log' : List ι} {i j : ι} {name : ι → String} {stage : Stage}

/-- What is known of a call when the index at `l` holds `text`, `holder` holds its lock and the
calls of `log` have done their part. -/
def Agrees (l : Location) (text : String) (holder : Option ι) (log : List ι) (i : ι) : Stage → Prop
  | .start | .checked _ => True
  | .opened _ l' => l' = l
  | .locked _ l' => l' = l ∧ holder = some i
  | .read _ l' contents? => l' = l ∧ holder = some i ∧ contents? = some text
  | .leaving l' r => l' = l ∧ holder = some i ∧ i ∈ log ∧ ∃ x, r = .ok x
  | .finished r => i ∈ log ∧ ∃ x, r = .ok x

theorem Agrees.outside {l : Location} (h : Agrees l text holder log i stage)
    (hi : holder ≠ some i) (hlog : log ⊆ log') : Agrees l text' holder' log' i stage := by
  cases stage with
  | start | checked => trivial
  | opened => exact h
  | locked => exact absurd h.2 hi
  | read | leaving => exact absurd h.2.1 hi
  | finished => exact ⟨hlog h.1, h.2⟩

theorem indexAfter_part (hnames : ∀ i, IsAccepted (name i)) (contents : String)
    (log : List ι) (i : ι) :
    indexAfter contents ((log ++ [i]).map name) = indexAfter contents (log.map name) ++
      (indexAddition? (indexAfter contents (log.map name)) (name i)).getD "" := by
  have hlog : ∀ n ∈ log.map name, IsAccepted n := by
    intro n hn
    obtain ⟨j, -, rfl⟩ := List.mem_map.1 hn
    exact hnames j
  rw [List.map_append, List.map_singleton, indexAfter_concat (hnames i) hlog]

@[simp] theorem holder_setHolder_self (c : Calls ι) (l : Location) (holder : Option ι) :
    (c.setHolder l holder).holder l = holder := by
  simp [setHolder]

variable [DecidableEq ι] {b c c' : Calls ι}

@[simp] theorem stage_move_self (c : Calls ι) (i : ι) (stage : Stage) :
    (c.move i stage).stage i = stage := by
  simp [move]

theorem stage_move_of_ne (c : Calls ι) (stage : Stage) (h : j ≠ i) :
    (c.move i stage).stage j = c.stage j := by
  simp [move, h]

/-- The index has been opened, and the calls of `log` have done their part, in that order. -/
structure Opened (f : Files) (d : Location) (s contents : String) (name : ι → String)
    (log : List ι) (c : Calls ι) : Prop where
  files : ∃ k : File, k.bytes = (indexAfter contents (log.map name)).toUTF8 ∧
    Files.Sets f d s (some (.file k)) c.files
  stages : ∀ i, Agrees (d ++ [s]) (indexAfter contents (log.map name)) (c.holder (d ++ [s])) log i
    (c.stage i)

namespace Opened

theorem quiet (ho : Opened f d s contents name log c)
    (hi : Agrees (d ++ [s]) (indexAfter contents (log.map name)) (c.holder (d ++ [s])) log i
      stage) :
    Opened f d s contents name log (c.move i stage) := by
  refine ⟨ho.files, fun j ↦ ?_⟩
  by_cases hj : j = i
  · rw [hj, stage_move_self]
    exact hi
  · rw [stage_move_of_ne c stage hj]
    exact ho.stages j

theorem alone (ho : Opened f d s contents name log c)
    (hholder : ∀ j ≠ i, c.holder (d ++ [s]) ≠ some j) (hstage : b.stage = c.stage)
    (hlog : log ⊆ log') (hfiles : ∃ k : File,
      k.bytes = (indexAfter contents (log'.map name)).toUTF8 ∧
        Files.Sets f d s (some (.file k)) b.files)
    (hi : Agrees (d ++ [s]) (indexAfter contents (log'.map name)) (b.holder (d ++ [s])) log' i
      stage) :
    Opened f d s contents name log' (b.move i stage) := by
  refine ⟨hfiles, fun j ↦ ?_⟩
  by_cases hj : j = i
  · rw [hj, stage_move_self]
    exact hi
  · -- The others do not hold the lock, so nothing that they rely on has changed.
    rw [stage_move_of_ne b stage hj, hstage]
    exact (ho.stages j).outside (hholder j hj) hlog

theorem opens {l : Location} {bytes bytes' : ByteArray} {h : Files} {existed : Bool}
    (hf : f.openOrCreate (Path.join dir indexName) = .ok (d ++ [s], bytes, g))
    (ho : Opened f d s contents name log c)
    (hopen : c.files.openOrCreate (Path.join dir indexName) = .ok (l, bytes', h)) :
    Opened f d s contents name log ((c.setFiles h).move i (.opened existed l)) := by
  obtain ⟨k, hk, hset⟩ := ho.files
  rw [Files.openOrCreate_again hf hset] at hopen
  obtain ⟨rfl, -, rfl⟩ : d ++ [s] = l ∧ k.bytes = bytes' ∧ c.files = h := by simpa using hopen
  exact ho.quiet rfl

theorem locks {l : Location} {existed : Bool} (ho : Opened f d s contents name log c)
    (hi : c.stage i = .opened existed l) (hfree : c.holder l = none) :
    Opened f d s contents name log ((c.setHolder l (some i)).move i (.locked existed l)) := by
  have hagrees := ho.stages i
  rw [hi] at hagrees
  obtain rfl : l = d ++ [s] := hagrees
  exact ho.alone (b := c.setHolder _ _) (by simp [hfree]) rfl (List.Subset.refl log) ho.files
    ⟨rfl, holder_setHolder_self ..⟩

theorem reads {l : Location} {existed : Bool} {k : File} (ho : Opened f d s contents name log c)
    (hi : c.stage i = .locked existed l) (hget : c.files.tree.get? l = some (.file k)) :
    Opened f d s contents name log (c.move i (.read existed l (Text.ofUtf8? k.bytes))) := by
  have hagrees := ho.stages i
  rw [hi] at hagrees
  obtain ⟨rfl, hholder⟩ := hagrees
  obtain ⟨k', hk', hset⟩ := ho.files
  obtain rfl : k' = k := by
    simpa using hset.self.symm.trans (Tree.node?_eq_some_file.2 hget)
  refine ho.quiet ⟨rfl, hholder, ?_⟩
  rw [hk', Text.ofUtf8?_toUTF8]

section Part

variable {l : Location} {existed : Bool} {current : String} (hnames : ∀ i, IsAccepted (name i))
include hnames

theorem skips (ho : Opened f d s contents name log c)
    (hi : c.stage i = .read existed l (some current))
    (hadd : indexAddition? current (name i) = none) :
    Opened f d s contents name (log ++ [i]) (c.move i (.leaving l (.ok .unchanged))) := by
  have hagrees := ho.stages i
  rw [hi] at hagrees
  obtain ⟨rfl, hholder, hcurrent⟩ := hagrees
  obtain rfl := Option.some.inj hcurrent
  refine ho.alone (by simpa [hholder] using fun j hj ↦ Ne.symm hj) rfl
    (List.subset_append_left log [i]) ?_ ⟨rfl, hholder, by simp, _, rfl⟩
  rw [indexAfter_part hnames, hadd, Option.getD_none, String.append_empty]
  exact ho.files

theorem appends {addition : String} {k : File} {x : IndexChange}
    (ho : Opened f d s contents name log c) (hi : c.stage i = .read existed l (some current))
    (hadd : indexAddition? current (name i) = some addition)
    (hget : c.files.tree.get? l = some (.file k)) :
    Opened f d s contents name (log ++ [i])
      ((c.setFiles (c.files.putBytes l (k.bytes ++ addition.toUTF8))).move i
        (.leaving l (.ok x))) := by
  have hagrees := ho.stages i
  rw [hi] at hagrees
  obtain ⟨rfl, hholder, hcurrent⟩ := hagrees
  obtain rfl := Option.some.inj hcurrent
  obtain ⟨k', hk', hset⟩ := ho.files
  have hnode := hset.self
  obtain rfl : k' = k := by simpa using hnode.symm.trans (Tree.node?_eq_some_file.2 hget)
  refine ho.alone (b := c.setFiles _) (by simpa [hholder] using fun j hj ↦ Ne.symm hj) rfl
    (List.subset_append_left log [i]) ⟨⟨k'.bytes ++ addition.toUTF8, none⟩, ?_, ?_⟩
    ⟨rfl, hholder, by simp, _, rfl⟩
  · rw [indexAfter_part hnames, hadd, Option.getD_some, Text.toUTF8_append, hk']
  · have hfolder := Tree.node?_parent (d := d) (n := s) (by rw [hnode]; simp)
    exact hset.trans (Files.sets_putBytes hfolder (by simp [hnode]) _)

end Part

theorem releases {l : Location} {r : Except Failure IndexChange}
    (ho : Opened f d s contents name log c) (hi : c.stage i = .leaving l r) :
    Opened f d s contents name log ((c.setHolder l none).move i (.finished r)) := by
  have hagrees := ho.stages i
  rw [hi] at hagrees
  obtain ⟨rfl, hholder, hmem, hr⟩ := hagrees
  exact ho.alone (b := c.setHolder _ _) (by simpa [hholder] using fun j hj ↦ Ne.symm hj) rfl
    (List.Subset.refl log) ho.files ⟨hmem, hr⟩

/-- One more step keeps the index in order; the call that takes it may have done its part. -/
theorem step {bytes : ByteArray} (hnames : ∀ i, IsAccepted (name i))
    (hf : f.openOrCreate (Path.join dir indexName) = .ok (d ++ [s], bytes, g))
    (ho : Opened f d s contents name log c) (hs : Step dir name c c') :
    ∃ log', Opened f d s contents name log' c' := by
  cases hs with
  | checks hi => exact ⟨log, ho.quiet trivial⟩
  | opens hi hopen => exact ⟨log, opens hf ho hopen⟩
  | fails hi hfail =>
    obtain ⟨k, -, hset⟩ := ho.files
    rw [Files.openOrCreate_again hf hset] at hfail
    cases hfail
  | locks hi hfree => exact ⟨log, ho.locks hi hfree⟩
  | reads hi hget => exact ⟨log, ho.reads hi hget⟩
  | @refuses i existed l hi =>
    have hagrees := ho.stages i
    rw [hi] at hagrees
    cases hagrees.2.2
  | skips hi hadd => exact ⟨_, skips hnames ho hi hadd⟩
  | appends hi hadd hget => exact ⟨_, appends hnames ho hi hadd hget⟩
  | releases hi => exact ⟨log, ho.releases hi⟩

end Opened

/-- No call has opened the index. -/
structure Unopened (f : Files) (c : Calls ι) : Prop where
  files : c.files = f
  stages : ∀ i, c.stage i = .start ∨ ∃ existed, c.stage i = .checked existed

theorem Unopened.checks (hu : Unopened f c) (i : ι) (existed : Bool) :
    Unopened f (c.move i (.checked existed)) := by
  refine ⟨hu.files, fun j ↦ ?_⟩
  by_cases hj : j = i
  · rw [hj, stage_move_self]
    exact .inr ⟨_, rfl⟩
  · rw [stage_move_of_ne c _ hj]
    exact hu.stages j

theorem Unopened.step {bytes : ByteArray}
    (hf : f.openOrCreate (Path.join dir indexName) = .ok (d ++ [s], bytes, g))
    (hg : ∃ k : File, k.bytes = contents.toUTF8 ∧ Files.Sets f d s (some (.file k)) g)
    (hu : Unopened f c) (hs : Step dir name c c') :
    Unopened f c' ∨ Opened f d s contents name [] c' := by
  have hwaits (i : ι) {stage : Stage} (hi : c.stage i = stage) :
      stage = .start ∨ ∃ existed, stage = .checked existed := by
    rw [← hi]
    exact hu.stages i
  cases hs with
  | checks hi => exact .inl (hu.checks _ _)
  | @opens i existed l bytes' h hi hopen =>
    rw [hu.files, hf] at hopen
    obtain ⟨rfl, -, rfl⟩ : d ++ [s] = l ∧ bytes = bytes' ∧ g = h := by simpa using hopen
    refine .inr ⟨hg, fun j ↦ ?_⟩
    by_cases hj : j = i
    · rw [hj, stage_move_self]
      rfl
    · rw [stage_move_of_ne _ _ hj]
      rcases hu.stages j with hj' | ⟨existed', hj'⟩
      · exact hj' ▸ trivial
      · exact hj' ▸ trivial
  | fails hi hfail =>
    rw [hu.files, hf] at hfail
    cases hfail
  | locks hi | reads hi | refuses hi | skips hi | appends hi | releases hi =>
    simpa using hwaits _ hi

def Refused (f : Files) : Stage → Prop
  | .start | .checked _ => True
  | .opened _ l | .locked _ l => ∃ k, f.tree.get? l = some (.file k) ∧ Text.ofUtf8? k.bytes = none
  | .read _ _ contents? => contents? = none
  | .leaving _ r | .finished r => ∃ e, r = .error e

/-- Calls that leave all files as they are. -/
structure Refusing (f : Files) (c : Calls ι) : Prop where
  files : c.files = f
  stages : ∀ i, Refused f (c.stage i)

theorem Refusing.move (hr : Refusing f c) (hfiles : b.files = f) (hstage : b.stage = c.stage)
    (hi : Refused f stage) : Refusing f (b.move i stage) := by
  refine ⟨hfiles, fun j ↦ ?_⟩
  by_cases hj : j = i
  · rw [hj, stage_move_self]
    exact hi
  · rw [stage_move_of_ne b stage hj, hstage]
    exact hr.stages j

theorem refused_of_openOrCreate {l : Location} {bytes : ByteArray}
    (hf : indexAt? f dir = none)
    (h : f.openOrCreate (Path.join dir indexName) = .ok (l, bytes, g)) :
    g = f ∧ ∃ k, f.tree.get? l = some (.file k) ∧ Text.ofUtf8? k.bytes = none := by
  have hbytes : Text.ofUtf8? bytes = none := by simpa [indexAt?, h] using hf
  obtain ⟨target, -, -, ⟨k, hk, rfl, rfl⟩ | ⟨-, rfl, -⟩⟩ := Files.resolve_of_openOrCreate h
  · exact ⟨rfl, k, Tree.node?_eq_some_file.1 hk, hbytes⟩
  · cases (Text.ofUtf8?_toUTF8 "").symm.trans hbytes

theorem Refusing.step (hf : indexAt? f dir = none) (hr : Refusing f c)
    (hs : Step dir name c c') : Refusing f c' := by
  have hstage (i : ι) {stage : Stage} (hi : c.stage i = stage) : Refused f stage :=
    hi ▸ hr.stages i
  cases hs with
  | checks hi => exact hr.move hr.files rfl trivial
  | opens hi hopen =>
    rw [hr.files] at hopen
    obtain ⟨hsame, hk⟩ := refused_of_openOrCreate hf hopen
    exact hr.move (b := c.setFiles _) hsame rfl hk
  | fails hi => exact hr.move hr.files rfl ⟨_, rfl⟩
  | locks hi =>
    have hk := hstage _ hi
    exact hr.move (b := c.setHolder _ _) hr.files rfl hk
  | reads hi hget =>
    obtain ⟨k, hk, hnone⟩ := hstage _ hi
    rw [hr.files, hk] at hget
    cases hget
    exact hr.move hr.files rfl hnone
  | refuses hi => exact hr.move hr.files rfl ⟨_, rfl⟩
  | skips hi => cases hstage _ hi
  | appends hi => cases hstage _ hi
  | releases hi =>
    have he := hstage _ hi
    exact hr.move (b := c.setHolder _ _) hr.files rfl he

theorem Run.trans {c'' : Calls ι} (h : Run dir name c c') (h' : Run dir name c' c'') :
    Run dir name c c'' := by
  induction h' with
  | refl => exact h
  | step _ hs ih => exact ih.step hs

theorem Refusing.run (hf : indexAt? f dir = none) (h : Run dir name (start f) c) :
    Refusing f c := by
  induction h with
  | refl => exact ⟨rfl, fun _ ↦ trivial⟩
  | step _ hs ih => exact ih.step hf hs

/-- An index with a text can be opened, and opening it makes it where it is missing. -/
theorem exists_openOrCreate {l : Location} (hf : indexAt? f dir = some (l, contents)) :
    ∃ d s bytes g, l = d ++ [s] ∧
      f.openOrCreate (Path.join dir indexName) = .ok (d ++ [s], bytes, g) ∧
      (∃ k : File, k.bytes = contents.toUTF8 ∧ Files.Sets f d s (some (.file k)) g) ∧
      f.textAt? l = some contents := by
  unfold indexAt? at hf
  cases ho : f.openOrCreate (Path.join dir indexName) with
  | error e => simp [ho] at hf
  | ok r =>
    obtain ⟨l', bytes, g⟩ := r
    obtain ⟨htext, rfl⟩ : Text.ofUtf8? bytes = some contents ∧ l' = l := by
      simpa [ho, Option.map_eq_some_iff] using hf
    obtain ⟨d, s, k, rfl, rfl, hat, hsets⟩ :=
      Files.sets_of_openOrCreate (Files.segments_join_ne_nil dir isName_indexName) ho
    exact ⟨d, s, _, g, rfl, rfl, ⟨k, (Text.toUTF8_of_ofUtf8? htext).symm, hsets⟩, hat.trans htext⟩

/-- After any steps, the index is what the calls that have done their part make of it in turn. -/
theorem indexAfter_run {l : Location} (hnames : ∀ i, IsAccepted (name i))
    (hf : indexAt? f dir = some (l, contents)) (h : Run dir name (start f) c) :
    ∃ log : List ι, c.files.textAt? l = some (indexAfter contents (log.map name)) ∧
      (∀ l' ≠ l, c.files.tree.node? l' = f.tree.node? l') ∧
      ∀ i r, c.stage i = .finished r → i ∈ log ∧ ∃ x, r = .ok x := by
  obtain ⟨d, s, bytes, g, rfl, ho, hg, htext⟩ := exists_openOrCreate hf
  -- The index is as it was until one call opens it. From then on `log` accounts for it.
  have hinv : Unopened f c ∨ ∃ log, Opened f d s contents name log c := by
    induction h with
    | refl => exact .inl ⟨rfl, fun _ ↦ .inl rfl⟩
    | step _ hs ih =>
      rcases ih with hu | ⟨log, hlog⟩
      · exact (hu.step ho hg hs).imp_right fun h ↦ ⟨[], h⟩
      · exact .inr (hlog.step hnames ho hs)
  rcases hinv with hu | ⟨log, ⟨k, hk, hset⟩, hstages⟩
  · refine ⟨[], ?_, fun l' _ ↦ by rw [hu.files], fun i r hi ↦ ?_⟩
    · rw [hu.files]
      exact htext
    · have hstage := hu.stages i
      simp [hi] at hstage
  · refine ⟨log, ?_, fun l' hl' ↦ hset.of_ne hl', fun i r hi ↦ ?_⟩
    · rw [Files.textAt?, hset.self]
      exact (congrArg Text.ofUtf8? hk).trans (Text.ofUtf8?_toUTF8 _)
    · have hstage := hstages i
      rw [hi] at hstage
      exact hstage

/-- When all calls have finished, the index has one line more for every name that was asked for and
that it did not list, and nothing else is new. Where it cannot be read as text, all calls fail and
nothing changes. -/
theorem index_of_finished (hnames : ∀ i, IsAccepted (name i)) (h : Run dir name (start f) c)
    (hdone : ∀ i, ∃ r, c.stage i = .finished r) :
    (∀ l contents, indexAt? f dir = some (l, contents) →
      (∀ i, ∃ x, c.stage i = .finished (.ok x)) ∧
      (∀ l' ≠ l, c.files.tree.node? l' = f.tree.node? l') ∧
      ∃ ns : List String, ns.Nodup ∧ (∀ n, n ∈ ns ↔ (∃ i, name i = n) ∧ ¬ Lists contents n) ∧
        c.files.textAt? l = some (contents ++ (if ns = [] then "" else closing contents) ++
          String.join (ns.map (indexLine · ++ "\n")))) ∧
    (indexAt? f dir = none → c.files = f ∧ ∀ i, ∃ e, c.stage i = .finished (.error e)) := by
  constructor
  · intro l contents hf
    obtain ⟨log, htext, hothers, hlog⟩ := indexAfter_run hnames hf h
    refine ⟨fun i ↦ ?_, hothers, unlisted contents (log.map name), nodup_unlisted _ _,
      fun n ↦ ?_, ?_⟩
    · obtain ⟨r, hr⟩ := hdone i
      obtain ⟨-, x, rfl⟩ := hlog i r hr
      exact ⟨x, hr⟩
    · rw [mem_unlisted, List.mem_map]
      refine and_congr_left fun _ ↦ ⟨fun ⟨i, _, hi⟩ ↦ ⟨i, hi⟩, fun ⟨i, hi⟩ ↦ ?_⟩
      obtain ⟨r, hr⟩ := hdone i
      exact ⟨i, (hlog i r hr).1, hi⟩
    · simp only [htext, indexAfter_eq, indexLine_append_newline]
  · intro hf
    have hr := Refusing.run hf h
    refine ⟨hr.files, fun i ↦ ?_⟩
    obtain ⟨r, hi⟩ := hdone i
    have hrefused := hr.stages i
    rw [hi] at hrefused
    obtain ⟨e, rfl⟩ := hrefused
    exact ⟨e, hi⟩

section Alone

omit [DecidableEq ι] in
theorem setHolder_setHolder {l : Location} (hfree : c.holder l = none) (holder : Option ι) :
    (c.setHolder l holder).setHolder l none = c := by
  rw [setHolder, setHolder, Function.update_idem, ← hfree, Function.update_eq_self]

@[simp] theorem move_move (c : Calls ι) (i : ι) (stage stage' : Stage) :
    (c.move i stage).move i stage' = c.move i stage' := by
  simp [move]

theorem setHolder_move (c : Calls ι) (i : ι) (stage : Stage) (l : Location) (holder : Option ι) :
    (c.move i stage).setHolder l holder = (c.setHolder l holder).move i stage := rfl

theorem setFiles_move (c : Calls ι) (i : ι) (stage : Stage) (f : Files) :
    (c.move i stage).setFiles f = (c.setFiles f).move i stage := rfl

theorem get?_of_openOrCreate {path : String} {l : Location} {bytes : ByteArray}
    (h : f.openOrCreate path = .ok (l, bytes, g)) :
    ∃ k, g.tree.get? l = some (.file k) ∧ k.bytes = bytes := by
  obtain ⟨target, -, -, ⟨k, hk, hbytes, rfl⟩ | ⟨-, hbytes, d, s, rfl, hset⟩⟩ :=
    Files.resolve_of_openOrCreate h
  · exact ⟨k, Tree.node?_eq_some_file.1 hk, hbytes.symm⟩
  · exact ⟨_, Tree.node?_eq_some_file.1 hset.self, hbytes.symm⟩

theorem Run.reads {l : Location} {k : File} {existed : Bool}
    (h : Run dir name c (b.move i (.opened existed l))) (hfree : b.holder l = none)
    (hk : b.files.tree.get? l = some (.file k)) :
    Run dir name c ((b.setHolder l (some i)).move i (.read existed l (Text.ofUtf8? k.bytes))) := by
  have hlocked := h.step (.locks (stage_move_self ..) hfree)
  have hread := hlocked.step (.reads (stage_move_self ..) hk)
  rwa [setHolder_move, move_move, move_move] at hread

theorem Run.finishes {b' : Calls ι} {l : Location} {r : Except Failure IndexChange}
    (h : Run dir name c ((b.setHolder l (some i)).move i stage))
    (hs : Step dir name ((b.setHolder l (some i)).move i stage)
      (((b'.setHolder l (some i)).move i stage).move i (.leaving l r)))
    (hfree : b'.holder l = none) : Run dir name c (b'.move i (.finished r)) := by
  have hreleased := (h.step hs).step (.releases (stage_move_self ..))
  rwa [setHolder_move, setHolder_move, move_move, move_move, setHolder_setHolder hfree]
    at hreleased

/-- A call that no other one disturbs does what `addToIndex` does. -/
theorem run_addToIndex {w w' : World} {r : Except Failure IndexChange}
    (hfault : Files.pathFault? dir = none) (hd : w.files.LeadsTo dir d)
    (h : (addToIndex dir (name i)).run w = (r, w')) (hc : c.files = w.files)
    (hi : c.stage i = .start) (hfree : ∀ l, c.holder l = none) :
    Run dir name c ((c.setFiles w'.files).move i (.finished r)) := by
  have hchecked : Run dir name c
      (c.move i (.checked (c.files.pathExists (Path.join dir indexName)))) :=
    .step .refl (.checks hi)
  rw [addToIndex, Action.run_bind, Storage.requireFolder_of_leadsTo hfault hd] at h
  simp only [Action.run_bind, Action.run_files, run_openIndex] at h
  cases hopen : w.files.openOrCreate (Path.join dir indexName) with
  | error e =>
    simp only [hopen] at h
    obtain ⟨rfl, rfl⟩ := Prod.mk.inj h
    have hfailed := hchecked.step (.fails (stage_move_self ..) (hc ▸ hopen))
    rw [move_move] at hfailed
    rwa [← hc]
  | ok p =>
    obtain ⟨l, bytes, g⟩ := p
    simp only [hopen] at h
    obtain ⟨k, hk, rfl⟩ := get?_of_openOrCreate hopen
    have hopened := hchecked.step (.opens (stage_move_self ..) (hc ▸ hopen))
    rw [setFiles_move, move_move] at hopened
    have hread := Run.reads (b := c.setFiles g) hopened (hfree l) hk
    cases hcontents : Text.ofUtf8? k.bytes with
    | none =>
      simp only [hcontents, Action.run_throw] at h
      obtain ⟨rfl, rfl⟩ := Prod.mk.inj h
      rw [hcontents] at hread
      exact hread.finishes (.refuses (stage_move_self ..)) (hfree l)
    | some contents =>
      rw [hcontents] at hread
      cases hadd : indexAddition? contents (name i) with
      | none =>
        simp only [hcontents, hadd, Action.run_log_bind, Action.run_pure] at h
        obtain ⟨rfl, rfl⟩ := Prod.mk.inj h
        exact hread.finishes (.skips (stage_move_self ..) hadd) (hfree l)
      | some addition =>
        have hdone : Run dir name c
            ((c.setFiles (g.putBytes l (k.bytes ++ addition.toUTF8))).move i
              (.finished (.ok (if c.files.pathExists (Path.join dir indexName) then .appended
                else .created)))) :=
          hread.finishes (.appends (stage_move_self ..) hadd hk) (hfree l)
        simp only [hcontents, hadd, Action.run_bind, Action.run_files, Action.run_setFiles] at h
        rw [hc] at hdone
        split at h <;>
        · next hexisted =>
          rw [Action.run_log_bind, Action.run_pure] at h
          obtain ⟨rfl, rfl⟩ := Prod.mk.inj h
          simpa [hexisted] using hdone

theorem leadsTo_of_addToIndex {w w' : World} {n : String} {r : Except Failure IndexChange}
    (hno : w.files.HoldsNoLinks dir) (hd : w.files.LeadsTo dir d)
    (h : (addToIndex dir n).run w = (r, w')) : w'.files.LeadsTo dir d := by
  cases r with
  | error e => exact hd.grows ((addToIndex_error h).alike d hd).grows
  | ok x =>
    obtain ⟨f, d', contents, k, hmakes, htext, -, hset⟩ := addToIndex_ok hno h
    obtain ⟨rfl, rfl⟩ := hmakes.eq hd
    exact hset.leadsTo (Files.node?_ne_folder_of_textAt? htext) (hno.ne_link d' hd) hd

end Alone

section Example

theorem isAccepted_shop : IsAccepted "shop" :=
  Manifest.nameFault?_eq_none.1 (by decide +kernel)

/-- Two calls that ask for one name. -/
theorem index_of_finished_openEnded : ∃ c : Calls Bool,
    Run "types" (fun _ ↦ "shop") (start openEnded) c ∧ (∀ i, ∃ r, c.stage i = .finished r) ∧
      c.files.textAt? ["types", indexName] =
        some "export * from './a-b';\nexport * from './shop';\n" := by
  have hfault : Files.pathFault? "types" = none := by decide
  have hd := openEnded_leadsTo
  have hno := isReady_openEnded.noLinks
  let w : World := ⟨openEnded, [], [], []⟩
  obtain ⟨r, w₁, h₁⟩ : ∃ r w₁, (addToIndex "types" "shop").run w = (r, w₁) := ⟨_, _, rfl⟩
  obtain ⟨r', w₂, h₂⟩ : ∃ r' w₂, (addToIndex "types" "shop").run w₁ = (r', w₂) := ⟨_, _, rfl⟩
  let c : Calls Bool := ((start openEnded).setFiles w₁.files).move true (.finished r)
  have hrun₁ : Run "types" (fun _ ↦ "shop") (start openEnded) c :=
    run_addToIndex hfault hd h₁ rfl rfl fun _ ↦ rfl
  have hrun₂ : Run "types" (fun _ ↦ "shop") c ((c.setFiles w₂.files).move false (.finished r')) :=
    run_addToIndex hfault (leadsTo_of_addToIndex hno hd h₁) h₂ rfl rfl fun _ ↦ rfl
  have hrun := hrun₁.trans hrun₂
  have hdone : ∀ i, ∃ x,
      ((c.setFiles w₂.files).move false (.finished r')).stage i = .finished x := by
    intro i
    cases i with
    | false => exact ⟨r', rfl⟩
    | true => exact ⟨r, rfl⟩
  have hindex : indexAt? openEnded "types" =
      some (["types", indexName], "export * from './a-b';") := by
    decide +kernel
  obtain ⟨-, -, ns, hnodup, hns, htext⟩ :=
    (index_of_finished (fun _ ↦ isAccepted_shop) hrun hdone).1 _ _ hindex
  have hshop : ns = ["shop"] := by
    have hlists : ¬ Lists "export * from './a-b';" "shop" := by decide +kernel
    refine List.perm_singleton.1 ((List.perm_ext_iff_of_nodup hnodup (by simp)).2 fun n ↦ ?_)
    rw [hns, List.mem_singleton]
    constructor
    · rintro ⟨⟨-, rfl⟩, -⟩
      rfl
    · rintro rfl
      exact ⟨⟨true, rfl⟩, hlists⟩
  refine ⟨_, hrun, hdone, htext.trans ?_⟩
  rw [hshop]
  decide +kernel

/-- A shared directory with an index that is no text. -/
def unreadable : Files where
  tree := .folder [("types", .folder [(indexName, .file ⟨⟨#[255]⟩, none⟩)])]

theorem unreadable_leadsTo : unreadable.LeadsTo "types" ["types"] :=
  .enter (by decide) (by decide) (by decide) rfl (.done rfl)

/-- A call on an index that is no text finishes, and adds nothing. -/
theorem exists_finished_unreadable : ∃ (c : Calls Unit) (r : Except Failure IndexChange),
    Run "types" (fun _ ↦ "shop") (start unreadable) c ∧ c.stage () = .finished r ∧
      c.files = unreadable := by
  let w : World := ⟨unreadable, [], [], []⟩
  obtain ⟨r, w', h⟩ : ∃ r w', (addToIndex "types" "shop").run w = (r, w') := ⟨_, _, rfl⟩
  have hrun : Run "types" (fun _ ↦ "shop") (start unreadable)
      (((start unreadable).setFiles w'.files).move () (.finished r)) :=
    run_addToIndex (by decide) unreadable_leadsTo h rfl rfl fun _ ↦ rfl
  have hindex : indexAt? unreadable "types" = none := by decide +kernel
  exact ⟨_, r, hrun, rfl, (Refusing.run hindex hrun).files⟩

/-- Calls that have all finished have not always added their lines. -/
theorem finished_without_line : ¬ ∀ (ι : Type) [DecidableEq ι] (dir : String) (f g : Files)
    (l : Location) (bytes : ByteArray) (name : ι → String) (c : Calls ι),
    (∀ i, IsAccepted (name i)) →
    f.openOrCreate (Path.join dir indexName) = .ok (l, bytes, g) →
    Run dir name (start f) c → (∀ i, ∃ r, c.stage i = .finished r) →
    ∃ (k : File) (ns : List String) (separator : String),
      c.files.tree.node? l = some (.file k) ∧ ns.Nodup ∧
      (∀ n, n ∈ ns ↔ (∃ i, name i = n) ∧
        ¬ (indexLine n).toUTF8.data.toList <:+: bytes.data.toList) ∧
      k.bytes = bytes ++ (separator ++ String.join (ns.map (indexLine · ++ "\n"))).toUTF8 := by
  intro hclaim
  obtain ⟨c, r, hrun, hdone, hfiles⟩ := exists_finished_unreadable
  have hopen : unreadable.openOrCreate (Path.join "types" indexName) =
      .ok (["types", indexName], ⟨#[255]⟩, unreadable) := by
    rfl
  obtain ⟨k, ns, separator, hk, -, hns, hbytes⟩ := hclaim Unit "types" unreadable _ _ _ _ c
    (fun _ ↦ isAccepted_shop) hopen hrun fun _ ↦ ⟨r, hdone⟩
  have hnode : unreadable.tree.node? ["types", indexName] = some (.file ⟨⟨#[255]⟩, none⟩) := rfl
  rw [hfiles, hnode] at hk
  obtain rfl : ⟨⟨#[255]⟩, none⟩ = k := by simpa using hk
  have hshop : "shop" ∈ ns := (hns "shop").2 ⟨⟨(), rfl⟩, by decide +kernel⟩
  have hsize := congrArg ByteArray.size hbytes
  rw [ByteArray.size_append] at hsize
  obtain ⟨n, rest, rfl⟩ := List.exists_cons_of_ne_nil (List.ne_nil_of_mem hshop)
  have hjoin : String.join ((n :: rest).map (indexLine · ++ "\n")) =
      indexLine n ++ "\n" ++ String.join (rest.map (indexLine · ++ "\n")) := by
    rw [List.map_cons, String.join_cons]
  rw [hjoin, String.toUTF8, String.size_toByteArray] at hsize
  simp only [String.utf8ByteSize_append] at hsize
  have hbreak : "\n".utf8ByteSize = 1 := rfl
  omega

end Example

end Calls

end AmbientTypes.SharedFolder
