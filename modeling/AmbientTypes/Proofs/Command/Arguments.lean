import AmbientTypes.Proofs.Command.Building
import AmbientTypes.Proofs.Result

namespace AmbientTypes.Command

def valuedNames : List (Opt × String) :=
  [Opt.config, .discovery, .outputDir, .tsc].flatMap fun o ↦ o.longNames.map (o, ·)

structure ValuedFlag where
  option : Opt
  name : String
  value : String
  attached : Bool
  known : (option, name) ∈ valuedNames

inductive BuildFlag
  | strict
  | valued (v : ValuedFlag)

namespace BuildFlag

def option : BuildFlag → Opt
  | strict => .strict
  | valued v => v.option

def value : BuildFlag → String
  | strict => ""
  | valued v => v.value

def words : BuildFlag → List String
  | strict => ["--strict"]
  | valued v => if v.attached then ["--" ++ v.name ++ "=" ++ v.value] else ["--" ++ v.name, v.value]

end BuildFlag

def written (flags : List BuildFlag) : List String :=
  flags.flatMap BuildFlag.words

def BuildFlag.valueFor? (o : Opt) (b : BuildFlag) : Option String :=
  if b.option = o then some b.value else none

def BuildFlags.ofWritten (flags : List BuildFlag) : BuildFlags where
  config := flags.findSome? (·.valueFor? .config)
  discovery := (flags.findSome? (·.valueFor? .discovery)).bind fun s ↦
    (SearchChoice.parse s).toOption
  outputDir := flags.findSome? (·.valueFor? .outputDir)
  tsc := flags.findSome? (·.valueFor? .tsc)
  strict := (flags.map (·.option)).contains .strict

def isDashed (word : String) : Bool :=
  match word.toList with
  | '-' :: _ :: _ => true
  | _ => false

def Level.Builds (l : Level) : Prop := l = .top ∨ l = .build

namespace ValuedFlag

variable (v : ValuedFlag) {l : Level}

theorem option_mem : v.option ∈ Level.buildOptions := by
  have h : ∀ p ∈ valuedNames, p.1 ∈ Level.buildOptions := by decide
  exact h _ v.known

theorem takesValue : v.option.valueName?.isSome = true := by
  have h : ∀ p ∈ valuedNames, p.1.valueName?.isSome = true := by decide
  exact h _ v.known

theorem long?_name (hl : l.Builds) : l.long? v.name = some v.option := by
  have h : ∀ p ∈ valuedNames,
      Level.top.long? p.2 = some p.1 ∧ Level.build.long? p.2 = some p.1 := by
    decide
  rcases hl with rfl | rfl
  · exact (h _ v.known).1
  · exact (h _ v.known).2

theorem name_ne_nil : v.name.toList ≠ [] := by
  have h : ∀ p ∈ valuedNames, p.2.toList ≠ [] := by decide
  exact h _ v.known

theorem unmarked_name : ∀ c ∈ v.name.toList, decide (c ≠ '=') = true := by
  have h : ∀ p ∈ valuedNames, p.2.toList.all (· ≠ '=') = true := by decide
  exact List.all_eq_true.1 (h _ v.known)

theorem takeWhile_name (rest : List Char) (h : rest.takeWhile (· ≠ '=') = []) :
    (v.name.toList ++ rest).takeWhile (· ≠ '=') = v.name.toList := by
  rw [List.takeWhile_append_of_pos v.unmarked_name, h, List.append_nil]

theorem dropWhile_name (rest : List Char) :
    (v.name.toList ++ rest).dropWhile (· ≠ '=') = rest.dropWhile (· ≠ '=') :=
  List.dropWhile_append_of_pos v.unmarked_name

end ValuedFlag

namespace Reading

variable {l : Level} {r r' : Reading} {o : Opt}

/-- Neither is all that follows plain nor is a value to come. -/
structure IsReady (r : Reading) : Prop where
  not_plain : r.plain = false
  not_awaiting : r.awaits = none

def add (r : Reading) (o : Opt) (value : String) : Result Reading := do
  let r ← r.settle
  return { r with flags := ← ofUsage (r.flags.add o value) }

theorem take_eq_add (ho : o ∈ Level.buildOptions) (l : Level) (value : String) :
    r.take l o value = r.add o value := by
  cases o with
  | help => exact absurd ho (by decide)
  | version => exact absurd ho (by decide)
  | _ => rfl

theorem long_detached {v : ValuedFlag} (hl : l.long? v.name = some v.option) :
    r.long l v.name.toList = r.await v.option := by
  obtain ⟨shown, hshown⟩ := Option.isSome_iff_exists.1 v.takesValue
  have htake := v.takeWhile_name [] rfl
  have hdrop := v.dropWhile_name []
  rw [List.append_nil] at htake hdrop
  simp only [long, htake, hdrop, List.dropWhile_nil, String.ofList_toList, hl, hshown]

theorem long_attached {v : ValuedFlag} (hl : l.long? v.name = some v.option) :
    r.long l (v.name.toList ++ '=' :: v.value.toList) = r.add v.option v.value := by
  obtain ⟨shown, hshown⟩ := Option.isSome_iff_exists.1 v.takesValue
  have htake := v.takeWhile_name ('=' :: v.value.toList) rfl
  have hdrop : (v.name.toList ++ '=' :: v.value.toList).dropWhile (· ≠ '=') =
      '=' :: v.value.toList := v.dropWhile_name _
  rw [← take_eq_add v.option_mem l]
  simp only [long, htake, hdrop, String.ofList_toList, hl, hshown]

theorem toList_dashed (name : String) : ("--" ++ name).toList = '-' :: '-' :: name.toList := by
  simp [String.toList_append]

theorem toList_dashed_value (name value : String) : ("--" ++ name ++ "=" ++ value).toList =
    '-' :: '-' :: (name.toList ++ '=' :: value.toList) := by
  simp [String.toList_append]

theorem argument_dashes (hr : r.plain = false) {word : String} {text : List Char}
    (hword : word.toList = '-' :: '-' :: text) (htext : text ≠ []) :
    r.argument l word = r.long l text := by
  obtain ⟨c, cs, rfl⟩ := List.exists_cons_of_ne_nil htext
  rw [argument, hr, hword]
  rfl

theorem argument_strict (hl : l.Builds) (hr : r.plain = false) :
    r.argument l "--strict" = r.add .strict "" := by
  have hword : "--strict".toList = '-' :: '-' :: "strict".toList := rfl
  rw [argument_dashes hr hword (by decide)]
  rcases hl with rfl | rfl <;> rfl

theorem argument_attached {v : ValuedFlag} (hl : l.long? v.name = some v.option)
    (hr : r.plain = false) :
    r.argument l ("--" ++ v.name ++ "=" ++ v.value) = r.add v.option v.value := by
  rw [argument_dashes hr (toList_dashed_value _ _) (by simp), long_attached hl]

theorem argument_detached {v : ValuedFlag} (hl : l.long? v.name = some v.option)
    (hr : r.plain = false) : r.argument l ("--" ++ v.name) = r.await v.option := by
  rw [argument_dashes hr (toList_dashed _) v.name_ne_nil, long_detached hl]

theorem settle_awaiting {o : Opt} (ho : r.pending = some (o, none)) :
    r.settle = .error (.failed (.missingValue o)) := by
  rw [settle, ho]

theorem take_awaiting {o : Opt} (ho : r.pending = some (o, none)) (o' : Opt) (value : String) :
    r.take l o' value = .error (.failed (.missingValue o)) := by
  rw [take, settle_awaiting ho]
  rfl

theorem long_awaiting {o : Opt} (ho : r.pending = some (o, none)) (text : List Char) :
    r.long l text ≠ .ok r' := by
  intro h
  simp only [long, take_awaiting ho, await, settle_awaiting ho] at h
  split at h
  · cases h
  · split at h <;> cases h

theorem short_awaiting {o : Opt} (ho : r.pending = some (o, none)) (c : Char) (cs : List Char) :
    short l (c :: cs) r ≠ .ok r' := by
  intro h
  rw [short] at h
  split at h
  · cases h
  · rw [take_awaiting ho] at h
    cases h

/-- A dashed word where a value has to come never leads on: it is an option, which settles the one
without its value, or two dashes. -/
theorem argument_awaiting (hr : r.plain = false) {o : Opt} (ho : r.pending = some (o, none))
    {word : String} (h : r.argument l word = .ok r') :
    (isDashed word = false ∧ r' = { r with pending := some (o, some word) }) ∨
      r' = { r with plain := true } := by
  have hawaits : r.awaits = some o := by rw [awaits, ho]
  unfold argument at h
  rw [if_neg (by simp [hr])] at h
  split at h
  case h_1 => exact .inr (Except.ok.inj h).symm
  case h_2 => exact absurd h (long_awaiting ho _)
  case h_3 => exact absurd h (short_awaiting ho _ _)
  case h_4 hplain hlong hshort =>
    left
    rw [hawaits] at h
    refine ⟨?_, (Except.ok.inj h).symm⟩
    unfold isDashed
    split
    · next c cs hword => exact (hshort c cs hword).elim
    · rfl

theorem argument_value (hr : r.plain = false) {o : Opt} (ho : r.pending = some (o, none))
    {word : String} (h : isDashed word = false) :
    r.argument l word = .ok { r with pending := some (o, some word) } := by
  have hawaits : r.awaits = some o := by rw [awaits, ho]
  unfold argument
  rw [if_neg (by simp [hr])]
  split
  case h_1 hword => simp [isDashed, hword] at h
  case h_2 hword => simp [isDashed, hword] at h
  case h_3 hword => simp [isDashed, hword] at h
  case h_4 => rw [hawaits]

theorem plain_awaiting (hr : r.plain = true) {o : Opt} (ho : r.pending = some (o, none))
    (args : List String) {x : List (Level × Flags)} : readFrom l r args ≠ .ok x := by
  intro h
  cases args with
  | nil =>
    rw [readFrom, finish, settle_awaiting ho] at h
    cases h
  | cons arg args =>
    rw [readFrom, hr, Bool.true_or, if_pos rfl, argument, hr, if_pos rfl, positional,
      settle_awaiting ho] at h
    split at h <;> cases h

/-- A word that starts with a dash names no command. -/
theorem command?_dash {word : String} {text : List Char} (hword : word.toList = '-' :: text) :
    command? l word = none ∧ word ≠ helpCommand := by
  constructor
  · rw [command?]
    split
    · rw [List.find?_eq_none]
      intro c hc hname
      have hnames : ∀ c ∈ Level.commands, c.name.toList.head? ≠ some '-' := by decide
      rw [decide_eq_true_eq] at hname
      exact hnames c hc (by rw [hname, hword]; rfl)
    · rfl
  · rintro rfl
    cases hword

theorem readFrom_dash (r : Reading) {word : String} {text : List Char}
    (hword : word.toList = '-' :: text) (rest : List String) :
    readFrom l r (word :: rest) = r.argument l word >>= fun r ↦ readFrom l r rest := by
  obtain ⟨hcommand, hhelp⟩ := command?_dash (l := l) hword
  rw [readFrom, hcommand]
  split
  · rfl
  · simp [hhelp]

theorem readFrom_awaiting {o : Opt} (ho : r.pending = some (o, none)) (word : String)
    (rest : List String) :
    readFrom l r (word :: rest) = r.argument l word >>= fun r ↦ readFrom l r rest := by
  have hawaits : r.awaits = some o := by rw [awaits, ho]
  rw [readFrom, hawaits, Option.isSome_some, Bool.or_true, if_pos rfl]

theorem readFrom_value (hr : r.plain = false) {o : Opt} (ho : r.pending = some (o, none))
    (word : String) (rest : List String) {x : List (Level × Flags)} :
    readFrom l r (word :: rest) = .ok x ↔
      isDashed word = false ∧
        readFrom l { r with pending := some (o, some word) } rest = .ok x := by
  rw [readFrom_awaiting ho, Except.bind_eq_ok_iff]
  constructor
  · rintro ⟨t, ht, h⟩
    rcases argument_awaiting hr ho ht with ⟨hword, rfl⟩ | rfl
    · exact ⟨hword, h⟩
    · exact absurd h (plain_awaiting (r := { r with plain := true }) rfl ho rest)
  · rintro ⟨hword, h⟩
    exact ⟨_, argument_value hr ho hword, h⟩

theorem settle_of_none (h : r.pending = none) : r.settle = .ok r := by
  rw [settle, h]

theorem settle_ok (h : r.settle = .ok r') :
    r'.plain = r.plain ∧ r'.pending = none := by
  unfold settle at h
  split at h
  · next hnone =>
    obtain rfl := Except.ok.inj h
    exact ⟨rfl, hnone⟩
  · cases h
  · obtain ⟨flags, -, h⟩ := Except.ok_of_bind h
    obtain rfl := Except.ok.inj h
    exact ⟨rfl, rfl⟩

def hold (r : Reading) (o : Opt) (value : String) : Result Reading := do
  return { ← r.settle with pending := some (o, some value) }

theorem hold_eq_ok_iff {value : String} : r.hold o value = .ok r' ↔
    ∃ s, r.settle = .ok s ∧ { s with pending := some (o, some value) } = r' := by
  rw [hold, Except.bind_eq_ok_iff]
  simp only [pure, Except.pure, Except.ok.injEq]

theorem await_eq_ok_iff : r.await o = .ok r' ↔
    ∃ s, r.settle = .ok s ∧ { s with pending := some (o, none) } = r' := by
  rw [await, Except.bind_eq_ok_iff]
  simp only [pure, Except.pure, Except.ok.injEq]

theorem readFrom_await (hr : r.plain = false) (o : Opt) (word : String)
    (rest : List String) {x : List (Level × Flags)} :
    (r.await o >>= fun r ↦ readFrom l r (word :: rest)) = .ok x ↔
      isDashed word = false ∧ ∃ r', r.hold o word = .ok r' ∧ readFrom l r' rest = .ok x := by
  rw [Except.bind_eq_ok_iff]
  constructor
  · rintro ⟨t, ht, h⟩
    obtain ⟨s, hs, rfl⟩ := await_eq_ok_iff.1 ht
    have hplain := (settle_ok hs).1.trans hr
    rw [readFrom_value (r := { s with pending := some (o, none) }) hplain rfl] at h
    exact ⟨h.1, _, hold_eq_ok_iff.2 ⟨s, hs, rfl⟩, h.2⟩
  · rintro ⟨hword, t, ht, h⟩
    obtain ⟨s, hs, rfl⟩ := hold_eq_ok_iff.1 ht
    have hplain := (settle_ok hs).1.trans hr
    refine ⟨_, await_eq_ok_iff.2 ⟨s, hs, rfl⟩, ?_⟩
    rw [readFrom_value (r := { s with pending := some (o, none) }) hplain rfl]
    exact ⟨hword, h⟩

def flag (r : Reading) : BuildFlag → Result Reading
  | .strict => r.add .strict ""
  | .valued v =>
    if v.attached then r.add v.option v.value
    else if isDashed v.value then .error (.failed (.missingValue v.option))
    else r.hold v.option v.value

theorem isReady_add (hr : r.IsReady) {value : String} (h : r.add o value = .ok r') :
    r'.IsReady := by
  obtain ⟨s, hs, h⟩ := Except.ok_of_bind h
  obtain ⟨flags, -, h⟩ := Except.ok_of_bind h
  obtain rfl := Except.ok.inj h
  obtain ⟨hplain, hpending⟩ := settle_ok hs
  exact ⟨hplain.trans hr.not_plain, by rw [awaits, hpending]⟩

theorem isReady_flag (hr : r.IsReady) {b : BuildFlag} (h : r.flag b = .ok r') : r'.IsReady := by
  cases b with
  | strict => exact isReady_add hr h
  | valued v =>
    rw [flag] at h
    split at h
    · exact isReady_add hr h
    · split at h
      · cases h
      · obtain ⟨s, hs, rfl⟩ := hold_eq_ok_iff.1 h
        exact ⟨(settle_ok hs).1.trans hr.not_plain, rfl⟩

/-- The words of a flag are read one flag at a time. -/
theorem readFrom_flag (hl : l.Builds) (hr : r.IsReady) (b : BuildFlag) (rest : List String)
    {x : List (Level × Flags)} :
    readFrom l r (b.words ++ rest) = .ok x ↔
      ∃ r', r.flag b = .ok r' ∧ readFrom l r' rest = .ok x := by
  cases b with
  | strict =>
    rw [BuildFlag.words, List.singleton_append, readFrom_dash r rfl,
      argument_strict hl hr.not_plain]
    exact Except.bind_eq_ok_iff
  | valued v =>
    rw [BuildFlag.words, flag]
    split
    · rw [List.singleton_append, readFrom_dash r (toList_dashed_value _ _),
        argument_attached (v.long?_name hl) hr.not_plain]
      exact Except.bind_eq_ok_iff
    · rw [List.cons_append, List.singleton_append, readFrom_dash r (toList_dashed _),
        argument_detached (v.long?_name hl) hr.not_plain]
      refine (readFrom_await hr.not_plain v.option v.value rest).trans ?_
      cases isDashed v.value <;> simp

theorem isReady_foldlM (hr : r.IsReady) {flags : List BuildFlag}
    (h : flags.foldlM flag r = .ok r') : r'.IsReady := by
  induction flags generalizing r with
  | nil =>
    obtain rfl := Except.ok.inj h
    exact hr
  | cons b flags ih =>
    rw [List.foldlM_cons, Except.bind_eq_ok_iff] at h
    obtain ⟨s, hs, h⟩ := h
    exact ih (isReady_flag hr hs) h

theorem readFrom_written (hl : l.Builds) (hr : r.IsReady) (flags : List BuildFlag)
    (rest : List String) {x : List (Level × Flags)} :
    readFrom l r (written flags ++ rest) = .ok x ↔
      ∃ r', flags.foldlM flag r = .ok r' ∧ readFrom l r' rest = .ok x := by
  induction flags generalizing r with
  | nil =>
    constructor
    · exact fun h ↦ ⟨r, rfl, h⟩
    · rintro ⟨r', hr', h⟩
      obtain rfl := Except.ok.inj hr'
      exact h
  | cons b flags ih =>
    rw [written, List.flatMap_cons, List.append_assoc, readFrom_flag hl hr]
    simp only [List.foldlM_cons, Except.bind_eq_ok_iff]
    constructor
    · rintro ⟨s, hs, h⟩
      obtain ⟨r', hfold, h⟩ := (ih (isReady_flag hr hs)).1 h
      exact ⟨r', ⟨s, hs, hfold⟩, h⟩
    · rintro ⟨r', ⟨s, hs, hfold⟩, h⟩
      exact ⟨s, hs, (ih (isReady_flag hr hs)).2 ⟨r', hfold, h⟩⟩

/-- Where no value has to come, a command starts a level of its own. -/
theorem readFrom_build (hr : r.IsReady) (args : List String) {x : List (Level × Flags)} :
    readFrom .top r ("build" :: args) = .ok x ↔
      ∃ inner f, readFrom .build {} args = .ok inner ∧ r.finish .top = .ok f ∧
        (.top, f) :: inner = x := by
  have hcommand : command? .top "build" = some .build := rfl
  rw [readFrom, hr.not_plain, hr.not_awaiting, hcommand]
  simp [Except.bind_eq_ok_iff, pure, Except.pure]

end Reading

/-- Flags that were read are those that were written, and nothing else was given. -/
structure Flags.Shows (f : Flags) (done : List BuildFlag) : Prop where
  given : f.given = done.map (·.option)
  build : f.build = .ofWritten done
  color : f.color = none
  format : f.format = none

theorem Flags.Shows.start : ({} : Flags).Shows [] := ⟨rfl, rfl, rfl, rfl⟩

theorem Flags.path_ok {o : Opt} {value : String} {x : Option String}
    (h : Flags.path o value = .ok x) : x = some value := by
  rw [Flags.path] at h
  split at h
  · cases h
  · exact (Except.ok.inj h).symm

theorem Flags.reasoned_ok {α : Type} {o : Opt} {value : String} {r : Except String α}
    {x : Option α} (h : Flags.reasoned o value r = .ok x) : x = r.toOption := by
  cases r with
  | error e => cases h
  | ok a => exact (Except.ok.inj h).symm

theorem Flags.not_given_of_add {f f' : Flags} {o : Opt} {value : String}
    (h : f.add o value = .ok f') : o ∉ f.given := by
  intro hmem
  rw [Flags.add, if_pos hmem] at h
  cases h

theorem Flags.add_ok {f f' : Flags} {o : Opt} {value : String} (ho : o ∈ Level.buildOptions)
    (h : f.add o value = .ok f') :
    f' = { f with
      given := f.given ++ [o]
      config := if o = .config then some value else f.config
      discovery := if o = .discovery then (SearchChoice.parse value).toOption else f.discovery
      outputDir := if o = .outputDir then some value else f.outputDir
      tsc := if o = .tsc then some value else f.tsc } := by
  have hnew := not_given_of_add h
  rw [Flags.add, if_neg hnew] at h
  simp only [Level.buildOptions, List.mem_cons, List.not_mem_nil, or_false] at ho
  rcases ho with rfl | rfl | rfl | rfl | rfl
  · obtain ⟨x, hx, h⟩ := Except.ok_of_bind h
    rw [← Except.ok.inj h, path_ok hx]
    rfl
  · obtain ⟨x, hx, h⟩ := Except.ok_of_bind h
    rw [← Except.ok.inj h, reasoned_ok hx]
    rfl
  · obtain ⟨x, hx, h⟩ := Except.ok_of_bind h
    rw [← Except.ok.inj h, path_ok hx]
    rfl
  · obtain ⟨x, hx, h⟩ := Except.ok_of_bind h
    rw [← Except.ok.inj h, path_ok hx]
    rfl
  · exact (Except.ok.inj h).symm

theorem BuildFlag.option_mem (b : BuildFlag) : b.option ∈ Level.buildOptions := by
  cases b with
  | strict => decide
  | valued v => exact v.option_mem

/-- A flag that comes last decides its own option where no other one does. -/
theorem findSome?_concat {done : List BuildFlag} {b : BuildFlag}
    (hnew : b.option ∉ done.map (·.option)) (o : Opt) :
    (done ++ [b]).findSome? (·.valueFor? o) =
      if b.option = o then some b.value else done.findSome? (·.valueFor? o) := by
  rw [List.findSome?_append]
  by_cases ho : b.option = o
  · have hnone : done.findSome? (·.valueFor? o) = none := by
      rw [List.findSome?_eq_none_iff]
      intro c hc
      have hne : c.option ≠ o := fun h ↦ hnew (List.mem_map.2 ⟨c, hc, h.trans ho.symm⟩)
      rw [BuildFlag.valueFor?, if_neg hne]
    rw [hnone, Option.none_or]
    simp [BuildFlag.valueFor?, ho]
  · simp [BuildFlag.valueFor?, ho]

/-- No option is given twice, so the value that was read is the one that was written. -/
theorem Flags.Shows.add {f f' : Flags} {done : List BuildFlag} (h : f.Shows done) {b : BuildFlag}
    (hadd : f.add b.option b.value = .ok f') : f'.Shows (done ++ [b]) := by
  have hnew := not_given_of_add hadd
  rw [h.given] at hnew
  obtain rfl := add_ok b.option_mem hadd
  have hbuild := h.build
  simp only [Flags.build, BuildFlags.ofWritten, BuildFlags.mk.injEq] at hbuild
  obtain ⟨hconfig, hdiscovery, houtputDir, htsc, -⟩ := hbuild
  constructor
  case given => simp [h.given]
  case build =>
    simp only [Flags.build, BuildFlags.ofWritten, findSome?_concat hnew, h.given, List.map_append,
      hconfig, hdiscovery, houtputDir, htsc]
    congr 1
    split <;> rfl
  case color => exact h.color
  case format => exact h.format

namespace Reading

variable {l : Level} {r r' : Reading} {o : Opt}

theorem ofUsage_ok {α : Type} {a : Except UsageError α} {x : α} (h : ofUsage a = .ok x) :
    a = .ok x := by
  cases a with
  | ok a =>
    rw [Except.ok.inj h]
  | error e => cases h

/-- Once settled, a reading has the flags that were written. -/
def Shows (r : Reading) (done : List BuildFlag) : Prop :=
  ∀ s, r.settle = .ok s → s.flags.Shows done

theorem Shows.add {done : List BuildFlag} (h : r.Shows done) {b : BuildFlag}
    (hadd : r.add b.option b.value = .ok r') : r'.Shows (done ++ [b]) := by
  obtain ⟨s, hs, hadd⟩ := Except.ok_of_bind hadd
  obtain ⟨flags, hflags, hadd⟩ := Except.ok_of_bind hadd
  obtain rfl := Except.ok.inj hadd
  intro t ht
  rw [settle_of_none (r := { s with flags := flags }) (settle_ok hs).2] at ht
  obtain rfl := Except.ok.inj ht
  exact (h s hs).add (ofUsage_ok hflags)

theorem Shows.hold {done : List BuildFlag} (h : r.Shows done) {b : BuildFlag}
    (hhold : r.hold b.option b.value = .ok r') : r'.Shows (done ++ [b]) := by
  obtain ⟨s, hs, rfl⟩ := hold_eq_ok_iff.1 hhold
  intro t ht
  obtain ⟨flags, hflags, ht⟩ := Except.ok_of_bind ht
  obtain rfl := Except.ok.inj ht
  exact (h s hs).add (ofUsage_ok hflags)

theorem Shows.flag {done : List BuildFlag} (h : r.Shows done) {b : BuildFlag}
    (hflag : r.flag b = .ok r') : r'.Shows (done ++ [b]) := by
  cases b with
  | strict => exact h.add hflag
  | valued v =>
    rw [Reading.flag] at hflag
    split at hflag
    · exact h.add (b := .valued v) hflag
    · split at hflag
      · cases hflag
      · exact h.hold (b := .valued v) hflag

theorem Shows.foldlM {done : List BuildFlag} (h : r.Shows done) {flags : List BuildFlag}
    (hfold : flags.foldlM Reading.flag r = .ok r') : r'.Shows (done ++ flags) := by
  induction flags generalizing r done with
  | nil =>
    obtain rfl := Except.ok.inj hfold
    rwa [List.append_nil]
  | cons b flags ih =>
    rw [List.foldlM_cons] at hfold
    obtain ⟨s, hs, hfold⟩ := Except.ok_of_bind hfold
    have hshows := ih (h.flag hs) hfold
    rwa [List.append_assoc, List.singleton_append] at hshows

/-- Flags of a build pass the checks of either level. -/
theorem check_of_shows {f : Flags} {flags : List BuildFlag} (h : f.Shows flags) (hl : l.Builds) :
    f.check l = .ok () := by
  have hquiet : f.given.filter (fun o ↦ o = .verbose || o = .quiet) = [] := by
    rw [List.filter_eq_nil_iff, h.given]
    intro o ho
    obtain ⟨b, -, rfl⟩ := List.mem_map.1 ho
    have hbuild : ∀ o ∈ Level.buildOptions, ¬ (o = .verbose || o = .quiet) = true := by decide
    exact hbuild _ b.option_mem
  rw [Flags.check, hquiet]
  rcases hl with rfl | rfl <;> rfl

theorem finish_eq_ok_iff {flags : List BuildFlag} (h : r.Shows flags) (hl : l.Builds) {f : Flags} :
    r.finish l = .ok f ↔ ∃ s, r.settle = .ok s ∧ s.flags = f := by
  rw [finish, Except.bind_eq_ok_iff]
  constructor
  · rintro ⟨s, hs, hf⟩
    rw [check_of_shows (h s hs) hl] at hf
    exact ⟨s, hs, Except.ok.inj hf⟩
  · rintro ⟨s, hs, rfl⟩
    refine ⟨s, hs, ?_⟩
    rw [check_of_shows (h s hs) hl]
    rfl

theorem isReady_empty : ({} : Reading).IsReady := ⟨rfl, rfl⟩

theorem shows_empty : ({} : Reading).Shows [] := by
  intro s hs
  obtain rfl := Except.ok.inj hs
  exact .start

end Reading

def ReadAs (flags : List BuildFlag) (f : Flags) : Prop :=
  ∃ r, flags.foldlM Reading.flag {} = .ok r ∧ ∃ s, r.settle = .ok s ∧ s.flags = f

theorem ReadAs.shows {flags : List BuildFlag} {f : Flags} (h : ReadAs flags f) :
    f.Shows flags := by
  obtain ⟨r, hr, s, hs, rfl⟩ := h
  exact Reading.shows_empty.foldlM hr s hs

theorem finish_of_foldlM {l : Level} (hl : l.Builds) {flags : List BuildFlag} {r : Reading}
    (hr : flags.foldlM Reading.flag {} = .ok r) {f : Flags} :
    r.finish l = .ok f ↔ ∃ s, r.settle = .ok s ∧ s.flags = f :=
  Reading.finish_eq_ok_iff (Reading.shows_empty.foldlM hr) hl

/-- Flags that stand last belong to their level alone. -/
theorem readFrom_written_iff {l : Level} (hl : l.Builds) (flags : List BuildFlag)
    {x : List (Level × Flags)} :
    readFrom l {} (written flags) = .ok x ↔ ∃ f, ReadAs flags f ∧ x = [(l, f)] := by
  rw [← List.append_nil (written flags), Reading.readFrom_written hl Reading.isReady_empty]
  simp only [readFrom, Except.bind_eq_ok_iff]
  constructor
  · rintro ⟨r, hr, f, hf, h⟩
    exact ⟨f, ⟨r, hr, (finish_of_foldlM hl hr).1 hf⟩, (Except.ok.inj h).symm⟩
  · rintro ⟨f, ⟨r, hr, hf⟩, rfl⟩
    exact ⟨r, hr, f, (finish_of_foldlM hl hr).2 hf, rfl⟩

theorem readFrom_build_iff (before after : List BuildFlag) {x : List (Level × Flags)} :
    readFrom .top {} (written before ++ "build" :: written after) = .ok x ↔
      ∃ f g, ReadAs before f ∧ ReadAs after g ∧ x = [(.top, f), (.build, g)] := by
  have htop : Level.top.Builds := .inl rfl
  rw [Reading.readFrom_written htop Reading.isReady_empty]
  constructor
  · rintro ⟨r, hr, h⟩
    obtain ⟨inner, f, hinner, hf, rfl⟩ :=
      (Reading.readFrom_build (Reading.isReady_foldlM Reading.isReady_empty hr) _).1 h
    obtain ⟨g, hg, rfl⟩ := (readFrom_written_iff (.inr rfl) after).1 hinner
    exact ⟨f, g, ⟨r, hr, (finish_of_foldlM htop hr).1 hf⟩, hg, rfl⟩
  · rintro ⟨f, g, ⟨r, hr, hf⟩, hg, rfl⟩
    have hinner := (readFrom_written_iff (.inr rfl) after).2 ⟨g, hg, rfl⟩
    refine ⟨r, hr, (Reading.readFrom_build
      (Reading.isReady_foldlM Reading.isReady_empty hr) _).2 ⟨_, f, hinner, ?_, rfl⟩⟩
    exact (finish_of_foldlM htop hr).2 hf

theorem refine_of_shows {f : Flags} {flags : List BuildFlag} (h : f.Shows flags) (r : Reporting) :
    r.refine f = r := by
  have hgiven (o : Opt) (ho : o ∉ Level.buildOptions) : f.given.contains o = false := by
    rw [← Bool.not_eq_true, List.contains_iff_mem, h.given]
    intro hmem
    obtain ⟨b, -, rfl⟩ := List.mem_map.1 hmem
    exact ho b.option_mem
  rw [Reporting.refine, hgiven .verbose (by decide), hgiven .quiet (by decide), h.color, h.format]
  simp

/-- The last level decides what to build. -/
theorem ofLevels_of_shows {l : Level} (hl : l.Builds) {f : Flags} {flags : List BuildFlag}
    (hf : f.Shows flags) {outer : List (Level × Flags)}
    (houter : ∀ p ∈ outer, ∃ flags, p.2.Shows flags) :
    Invocation.ofLevels (outer ++ [(l, f)]) = ⟨{}, .build (.ofWritten flags)⟩ := by
  have hreporting : outer.foldl (fun r p ↦ r.refine p.2) {} = ({} : Reporting) := by
    induction outer with
    | nil => rfl
    | cons p outer ih =>
      obtain ⟨done, hp⟩ := houter p List.mem_cons_self
      rw [List.foldl_cons, refine_of_shows hp]
      exact ih fun q hq ↦ houter q (List.mem_cons_of_mem p hq)
  have htask : Task.ofFlags l f = .build (.ofWritten flags) := by
    rw [← hf.build]
    rcases hl with rfl | rfl <;> rfl
  rw [Invocation.ofLevels, List.foldl_append, hreporting, List.getLast?_concat]
  simp only [List.foldl_cons, List.foldl_nil, refine_of_shows hf, htask]

def Accepted (flags : List BuildFlag) : Prop := ∃ f, ReadAs flags f

theorem accepted_nil : Accepted [] := ⟨{}, {}, rfl, {}, rfl, rfl⟩

theorem parse_written_iff (flags : List BuildFlag) {i : Invocation} :
    Invocation.parse (written flags) = .ok i ↔
      Accepted flags ∧ i = ⟨{}, .build (.ofWritten flags)⟩ := by
  have hlevels {f : Flags} (hf : ReadAs flags f) :
      Invocation.ofLevels [(.top, f)] = ⟨{}, .build (.ofWritten flags)⟩ :=
    ofLevels_of_shows (.inl rfl) hf.shows (List.forall_mem_nil _)
  rw [Invocation.parse, Except.map_eq_ok_iff]
  constructor
  · rintro ⟨x, hx, rfl⟩
    obtain ⟨f, hf, rfl⟩ := (readFrom_written_iff (.inl rfl) flags).1 hx
    exact ⟨⟨f, hf⟩, hlevels hf⟩
  · rintro ⟨⟨f, hf⟩, rfl⟩
    exact ⟨_, (readFrom_written_iff (.inl rfl) flags).2 ⟨f, hf, rfl⟩, hlevels hf⟩

theorem parse_build_iff (before after : List BuildFlag) {i : Invocation} :
    Invocation.parse (written before ++ "build" :: written after) = .ok i ↔
      Accepted before ∧ Accepted after ∧ i = ⟨{}, .build (.ofWritten after)⟩ := by
  have hlevels {f g : Flags} (hf : ReadAs before f) (hg : ReadAs after g) :
      Invocation.ofLevels [(.top, f), (.build, g)] = ⟨{}, .build (.ofWritten after)⟩ :=
    ofLevels_of_shows (.inr rfl) hg.shows (List.forall_mem_singleton.2 ⟨before, hf.shows⟩)
  rw [Invocation.parse, Except.map_eq_ok_iff]
  constructor
  · rintro ⟨x, hx, rfl⟩
    obtain ⟨f, g, hf, hg, rfl⟩ := (readFrom_build_iff before after).1 hx
    exact ⟨⟨f, hf⟩, ⟨g, hg⟩, hlevels hf hg⟩
  · rintro ⟨⟨f, hf⟩, ⟨g, hg⟩, rfl⟩
    exact ⟨_, (readFrom_build_iff before after).2 ⟨f, g, hf, hg, rfl⟩, hlevels hf hg⟩

theorem run_congr {args args' : List String} {i : Invocation} (h : Invocation.parse args = .ok i)
    (h' : Invocation.parse args' = .ok i) (launch : Launcher) (terminal : Bool) (w : World) :
    run launch terminal args w = run launch terminal args' w := by
  rw [run, run, h, h']

/-- With flags on both sides of the command, the run is the one that the flags behind it ask for,
with the command or without it. All the flags together ask for another one where those in front say
something. -/
theorem run_split (before after : List BuildFlag) {i : Invocation}
    (h : Invocation.parse (written before ++ "build" :: written after) = .ok i) :
    i = ⟨{}, .build (.ofWritten after)⟩ ∧
      (∀ launch terminal w,
        run launch terminal (written before ++ "build" :: written after) w =
            run launch terminal ("build" :: written after) w ∧
          run launch terminal ("build" :: written after) w =
            run launch terminal (written after) w) ∧
      ∀ j, Invocation.parse ("build" :: written (before ++ after)) = .ok j ∨
          Invocation.parse (written (before ++ after)) = .ok j →
        j = ⟨{}, .build (.ofWritten (before ++ after))⟩ := by
  obtain ⟨-, hafter, rfl⟩ := (parse_build_iff before after).1 h
  have hbuild := (parse_build_iff [] after).2 ⟨accepted_nil, hafter, rfl⟩
  have hbare := (parse_written_iff after).2 ⟨hafter, rfl⟩
  refine ⟨rfl, fun launch terminal w ↦ ⟨?_, ?_⟩, fun j hj ↦ ?_⟩
  · exact run_congr h hbuild launch terminal w
  · exact run_congr hbuild hbare launch terminal w
  · rcases hj with hj | hj
    · obtain ⟨-, -, rfl⟩ := (parse_build_iff [] (before ++ after)).1 hj
      rfl
    · obtain ⟨-, rfl⟩ := (parse_written_iff (before ++ after)).1 hj
      rfl

section Example

def inFront : List BuildFlag :=
  [.valued ⟨.outputDir, "output-dir", "types", false, by decide⟩]

def behind : List BuildFlag :=
  [.valued ⟨.config, "config", "shop.json", false, by decide⟩,
    .valued ⟨.tsc, "tsc", "./tool", false, by decide⟩]

theorem parse_split : Invocation.parse (written inFront ++ "build" :: written behind) =
    .ok ⟨{}, .build (.ofWritten behind)⟩ := rfl

theorem parse_joined : Invocation.parse ("build" :: written (inFront ++ behind)) =
    .ok ⟨{}, .build toolFlags⟩ := rfl

theorem run_split_shop :
    written inFront ++ "build" :: written behind =
        ["--output-dir", "types", "build", "--config", "shop.json", "--tsc", "./tool"] ∧
      Invocation.parse (written inFront ++ "build" :: written behind) =
        .ok ⟨{}, .build (.ofWritten behind)⟩ ∧
      run Execution.start false (written inFront ++ "build" :: written behind) shopWithTool =
        run Execution.start false (written behind) shopWithTool ∧
      toolFlags = .ofWritten (inFront ++ behind) := by
  obtain ⟨-, hruns, hjoined⟩ := run_split inFront behind parse_split
  obtain ⟨hbuild, hbare⟩ := hruns Execution.start false shopWithTool
  refine ⟨by decide, parse_split, hbuild.trans hbare, ?_⟩
  have htogether := hjoined _ (.inl parse_joined)
  cases htogether
  rfl

/-- An output directory in front of the command is accepted, and nothing is written there. -/
theorem outputDir_dropped : ¬ ∀ (before after : List BuildFlag) (terminal : Bool) (w : World)
    (i j : Invocation), Invocation.parse (written before ++ "build" :: written after) = .ok i →
      Invocation.parse ("build" :: written (before ++ after)) = .ok j →
        (run Execution.start terminal (written before ++ "build" :: written after) w).1.exit =
            (run Execution.start terminal ("build" :: written (before ++ after)) w).1.exit ∧
          (run Execution.start terminal (written before ++ "build" :: written after) w).2.files =
            (run Execution.start terminal ("build" :: written (before ++ after)) w).2.files := by
  intro h
  obtain ⟨-, hfiles⟩ := h inFront behind false shopWithTool _ _ parse_split parse_joined
  have hsplit : (run Execution.start false (written inFront ++ "build" :: written behind)
      shopWithTool).2.files.isFile "types/shop.d.ts" = false := by
    decide +kernel
  have hjoined : (run Execution.start false ("build" :: written (inFront ++ behind))
      shopWithTool).2.files.isFile "types/shop.d.ts" = true := by
    decide +kernel
  rw [hfiles, hjoined] at hsplit
  cases hsplit

end Example

end AmbientTypes.Command
