import AmbientTypes.Proofs.Command.Arguments
import AmbientTypes.Proofs.Command.Showing
import Mathlib.Data.List.Forall2

namespace AmbientTypes.Command

def reportingOptions : List Opt := [.verbose, .quiet, .color, .messageFormat]

def bareWords : List (Opt × String) :=
  [(.verbose, "--verbose"), (.verbose, "-v"), (.quiet, "--quiet"), (.quiet, "-q")]

def settingNames : List (Opt × String) :=
  [(.color, "color"), (.messageFormat, "message-format")]

/-- A flag that steers reporting, as it may be written. -/
inductive ReportingFlag
  | bare (o : Opt) (word : String) (known : (o, word) ∈ bareWords)
  | setting (o : Opt) (name value : String) (attached : Bool) (known : (o, name) ∈ settingNames)

def ReportingFlag.words : ReportingFlag → List String
  | bare _ word _ => [word]
  | setting _ name value attached _ =>
    if attached then ["--" ++ name ++ "=" ++ value] else ["--" ++ name, value]

theorem mem_of_bareWords {o : Opt} {word : String} (h : (o, word) ∈ bareWords) :
    o ∈ reportingOptions := by
  have hall : ∀ p ∈ bareWords, p.1 ∈ reportingOptions := by decide
  exact hall _ h

theorem mem_of_settingNames {o : Opt} {name : String} (h : (o, name) ∈ settingNames) :
    o ∈ reportingOptions := by
  have hall : ∀ p ∈ settingNames, p.1 ∈ reportingOptions := by decide
  exact hall _ h

theorem exists_dash_bareWords {o : Opt} {word : String} (h : (o, word) ∈ bareWords) :
    ∃ text, word.toList = '-' :: text := by
  have hall : ∀ p ∈ bareWords, p.2.toList = '-' :: p.2.toList.tail := by decide
  exact ⟨_, hall _ h⟩

theorem ReportingFlag.exists_dash (b : ReportingFlag) :
    ∃ word text more, b.words = word :: more ∧ word.toList = '-' :: text := by
  cases b with
  | bare o word known =>
    obtain ⟨text, hword⟩ := exists_dash_bareWords known
    exact ⟨word, text, [], rfl, hword⟩
  | setting o name value attached known =>
    rw [words]
    split
    · exact ⟨_, _, [], rfl, Reading.toList_dashed_value name value⟩
    · exact ⟨_, _, [value], rfl, Reading.toList_dashed name⟩

/-- The second command line is the first one with flags for reporting put in, anywhere. -/
inductive WithReporting : List String → List String → Prop
  | nil : WithReporting [] []
  | word {base args : List String} (word : String) :
      WithReporting base args → WithReporting (word :: base) (word :: args)
  | flag {base args : List String} (b : ReportingFlag) :
      WithReporting base args → WithReporting base (b.words ++ args)

theorem WithReporting.refl (args : List String) : WithReporting args args := by
  induction args with
  | nil => exact .nil
  | cons arg args ih => exact .word arg ih

theorem Flags.given_of_add {f f' : Flags} {o : Opt} {value : String}
    (h : f.add o value = .ok f') : f'.given = f.given ++ [o] := by
  rw [Flags.add, if_neg (not_given_of_add h)] at h
  cases o with
  | verbose | quiet | strict | all | help | version =>
    obtain rfl := Except.ok.inj h
    rfl
  | color | messageFormat | config | discovery | outputDir | tsc | shell =>
    obtain ⟨x, -, h⟩ := Except.ok_of_bind h
    obtain rfl := Except.ok.inj h
    rfl

theorem Flags.check_eq_ok_iff {f : Flags} {l : Level} : f.check l = .ok () ↔
    (f.given.filter fun o ↦ o = .verbose || o = .quiet).length ≤ 1 ∧
      ¬ (l = .completions ∧ f.shell = none) := by
  unfold Flags.check
  generalize f.given.filter (fun o ↦ o = .verbose || o = .quiet) = loud
  match loud with
  | [] => simp
  | [_] => simp
  | _ :: _ :: _ => simp

/-- The second flags have the options of the first, and besides them only such that steer
reporting. -/
structure Flags.ExtendsTo (f g : Flags) : Prop where
  given : f.given.Sublist g.given
  functional : ∀ o ∈ g.given, o ∈ f.given ∨ o ∈ reportingOptions
  config : g.config = f.config
  discovery : g.discovery = f.discovery
  outputDir : g.outputDir = f.outputDir
  tsc : g.tsc = f.tsc
  shell : g.shell = f.shell

namespace Flags.ExtendsTo

variable {f g g' : Flags} {o : Opt} {value : String}

theorem refl (f : Flags) : f.ExtendsTo f where
  given := List.Sublist.refl _
  functional _ ho := .inl ho
  config := rfl
  discovery := rfl
  outputDir := rfl
  tsc := rfl
  shell := rfl

theorem give (h : f.ExtendsTo g) (o : Opt) :
    ({ f with given := f.given ++ [o] } : Flags).ExtendsTo
      { g with given := g.given ++ [o] } where
  given := h.given.append_right [o]
  functional o' ho' := by
    rw [List.mem_append]
    rcases List.mem_append.1 ho' with hg | hnew
    · exact (h.functional o' hg).imp_left .inl
    · exact .inl (.inr hnew)
  config := h.config
  discovery := h.discovery
  outputDir := h.outputDir
  tsc := h.tsc
  shell := h.shell

theorem add (h : f.ExtendsTo g) (hadd : g.add o value = .ok g') :
    ∃ f', f.add o value = .ok f' ∧ f'.ExtendsTo g' := by
  have hnew := not_given_of_add hadd
  have hgive := h.give o
  rw [Flags.add, if_neg hnew] at hadd
  rw [Flags.add, if_neg fun hmem ↦ hnew (h.given.subset hmem)]
  cases o with
  | verbose | quiet | strict | all | help | version =>
    obtain rfl := Except.ok.inj hadd
    exact ⟨_, rfl, hgive⟩
  | color | messageFormat | config | discovery | outputDir | tsc | shell =>
    obtain ⟨x, hx, hadd⟩ := Except.ok_of_bind hadd
    obtain rfl := Except.ok.inj hadd
    refine ⟨_, Except.bind_eq_ok_iff.2 ⟨x, hx, rfl⟩, hgive.given, hgive.functional, ?_, ?_, ?_,
      ?_, ?_⟩
    all_goals first | rfl | exact h.config | exact h.discovery | exact h.outputDir | exact h.tsc |
      exact h.shell

theorem report (h : f.ExtendsTo g) (ho : o ∈ reportingOptions) (hadd : g.add o value = .ok g') :
    f.ExtendsTo g' := by
  have hgive : f.ExtendsTo { g with given := g.given ++ [o] } := by
    refine { h with given := ?_, functional := ?_ }
    · exact h.given.trans (List.sublist_append_left _ _)
    · intro o' ho'
      rcases List.mem_append.1 ho' with hg | hnew
      · exact h.functional o' hg
      · exact .inr (List.mem_singleton.1 hnew ▸ ho)
  rw [Flags.add, if_neg (not_given_of_add hadd)] at hadd
  simp only [reportingOptions, List.mem_cons, List.not_mem_nil, or_false] at ho
  rcases ho with rfl | rfl | rfl | rfl
  · exact Except.ok.inj hadd ▸ hgive
  · exact Except.ok.inj hadd ▸ hgive
  · obtain ⟨x, -, hadd⟩ := Except.ok_of_bind hadd
    exact Except.ok.inj hadd ▸ { hgive with }
  · obtain ⟨x, -, hadd⟩ := Except.ok_of_bind hadd
    exact Except.ok.inj hadd ▸ { hgive with }

theorem check (h : f.ExtendsTo g) {l : Level} (hcheck : g.check l = .ok ()) :
    f.check l = .ok () := by
  rw [check_eq_ok_iff] at hcheck ⊢
  rw [← h.shell]
  exact ⟨Nat.le_trans (h.given.filter _).length_le hcheck.1, hcheck.2⟩

theorem contains_iff (h : f.ExtendsTo g) (ho : o ∉ reportingOptions) :
    g.given.contains o = f.given.contains o := by
  rw [Bool.eq_iff_iff, List.contains_iff_mem, List.contains_iff_mem]
  refine ⟨fun hg ↦ (h.functional o hg).resolve_right ho, fun hf ↦ h.given.subset hf⟩

theorem ofFlags (h : f.ExtendsTo g) (l : Level) : Task.ofFlags l g = Task.ofFlags l f := by
  have hstrict := h.contains_iff (o := .strict) (by decide)
  have hall := h.contains_iff (o := .all) (by decide)
  cases l <;> simp only [Task.ofFlags, Flags.build, Flags.locate, h.config, h.discovery,
    h.outputDir, h.tsc, h.shell, hstrict, hall]

end Flags.ExtendsTo

namespace Reading

variable {l : Level} {r s s' t : Reading} {o : Opt} {value word : String}

/-- Both readings wait for the same, and once they are settled the flags of the second one extend
those of the first. -/
structure ExtendsTo (r s : Reading) : Prop where
  plain : r.plain = s.plain
  awaits : r.awaits = s.awaits
  flags : s.awaits.isSome → r.flags.ExtendsTo s.flags
  settle : ∀ t, s.settle = .ok t → ∃ u, r.settle = .ok u ∧ u.flags.ExtendsTo t.flags

theorem take_eq_ok_iff : r.take l o value = .ok s ↔
    o ≠ .help ∧ o ≠ .version ∧ r.add o value = .ok s := by
  cases o with
  | help | version =>
    refine ⟨fun h ↦ ?_, by simp⟩
    obtain ⟨t, -, h⟩ := Except.ok_of_bind h
    cases h
  | _ => exact ⟨fun h ↦ ⟨by decide, by decide, h⟩, fun h ↦ h.2.2⟩

theorem awaits_of_settle (h : s.settle = .ok t) : s.awaits = none := by
  unfold settle at h
  unfold awaits
  split at h
  · next hnone => rw [hnone]
  · cases h
  · next hsome => rw [hsome]

theorem acceptsPlain_of_settle (h : s.settle = .ok t) :
    s.acceptsPlain l = (l = .completions && !(t.flags.given.contains .shell)) := by
  unfold settle at h
  split at h
  · next hnone =>
    obtain rfl := Except.ok.inj h
    simp [acceptsPlain, hnone]
  · cases h
  · next o value hsome =>
    obtain ⟨flags, hflags, h⟩ := Except.ok_of_bind h
    obtain rfl := Except.ok.inj h
    have hshell : (Opt.shell == o) = decide (o = .shell) := by cases o <;> rfl
    simp only [acceptsPlain, hsome, Flags.given_of_add (ofUsage_ok hflags), List.contains_append,
      List.contains_cons, List.contains_nil, hshell, Bool.or_false, Bool.not_or, Bool.and_assoc,
      Option.map_some, ne_eq, Option.some.injEq, decide_not]

theorem settle_plain (s : Reading) : ({ s with plain := true } : Reading).settle =
    s.settle.map fun t ↦ { t with plain := true } := by
  obtain ⟨flags, pending, plain⟩ := s
  match pending with
  | none => rfl
  | some (o, none) => rfl
  | some (o, some value) =>
    simp only [settle]
    cases ofUsage (flags.add o value) <;> rfl

namespace ExtendsTo

theorem of_flags (hplain : r.plain = s.plain) (hpending : r.pending = s.pending)
    (hflags : r.flags.ExtendsTo s.flags) : r.ExtendsTo s where
  plain := hplain
  awaits := by rw [Reading.awaits, Reading.awaits, hpending]
  flags _ := hflags
  settle t ht := by
    unfold Reading.settle at ht ⊢
    rw [hpending]
    split at ht
    · next hnone =>
      obtain rfl := Except.ok.inj ht
      exact ⟨r, rfl, hflags⟩
    · cases ht
    · next o value hsome =>
      obtain ⟨g, hg, ht⟩ := Except.ok_of_bind ht
      obtain rfl := Except.ok.inj ht
      obtain ⟨f, hf, hfg⟩ := hflags.add (ofUsage_ok hg)
      exact ⟨_, Except.bind_eq_ok_iff.2 ⟨f, by rw [hf, ofUsage], rfl⟩, hfg⟩

theorem settled (h : r.ExtendsTo s) (ht : s.settle = .ok t) : ∃ u, r.settle = .ok u ∧
    u.plain = t.plain ∧ u.pending = t.pending ∧ u.flags.ExtendsTo t.flags := by
  obtain ⟨u, hu, hflags⟩ := h.settle t ht
  obtain ⟨hplain, hpending⟩ := settle_ok ht
  obtain ⟨hplain', hpending'⟩ := settle_ok hu
  exact ⟨u, hu, hplain'.trans (h.plain.trans hplain.symm), hpending'.trans hpending.symm, hflags⟩

theorem add (h : r.ExtendsTo s) (hs : s.add o value = .ok s') :
    ∃ r', r.add o value = .ok r' ∧ r'.ExtendsTo s' := by
  obtain ⟨t, ht, hs⟩ := Except.ok_of_bind hs
  obtain ⟨g, hg, hs⟩ := Except.ok_of_bind hs
  obtain rfl := Except.ok.inj hs
  obtain ⟨u, hu, hplain, hpending, hflags⟩ := h.settled ht
  obtain ⟨f, hf, hfg⟩ := hflags.add (ofUsage_ok hg)
  refine ⟨{ u with flags := f }, Except.bind_eq_ok_iff.2 ⟨u, hu, ?_⟩, .of_flags hplain hpending hfg⟩
  rw [hf]
  rfl

theorem take (h : r.ExtendsTo s) (hs : s.take l o value = .ok s') :
    ∃ r', r.take l o value = .ok r' ∧ r'.ExtendsTo s' := by
  obtain ⟨hhelp, hversion, hs⟩ := take_eq_ok_iff.1 hs
  obtain ⟨r', hr', hext⟩ := h.add hs
  exact ⟨r', take_eq_ok_iff.2 ⟨hhelp, hversion, hr'⟩, hext⟩

theorem await (h : r.ExtendsTo s) (hs : s.await o = .ok s') :
    ∃ r', r.await o = .ok r' ∧ r'.ExtendsTo s' := by
  obtain ⟨t, ht, rfl⟩ := await_eq_ok_iff.1 hs
  obtain ⟨u, hu, hplain, -, hflags⟩ := h.settled ht
  exact ⟨_, await_eq_ok_iff.2 ⟨u, hu, rfl⟩, .of_flags hplain rfl hflags⟩

theorem long (h : r.ExtendsTo s) {text : List Char} (hs : s.long l text = .ok s') :
    ∃ r', r.long l text = .ok r' ∧ r'.ExtendsTo s' := by
  simp only [Reading.long] at hs ⊢
  split at hs
  · cases hs
  · next o ho =>
    split at hs
    · exact h.take hs
    · exact h.await hs
    · cases hs
    · exact h.take hs

theorem short (h : r.ExtendsTo s) {cs : List Char} (hs : Reading.short l cs s = .ok s') :
    ∃ r', Reading.short l cs r = .ok r' ∧ r'.ExtendsTo s' := by
  induction cs generalizing r s with
  | nil =>
    obtain rfl := Except.ok.inj hs
    exact ⟨r, rfl, h⟩
  | cons c cs ih =>
    rw [Reading.short] at hs ⊢
    split at hs
    · cases hs
    · next o ho =>
      obtain ⟨t, ht, hs⟩ := Except.ok_of_bind hs
      obtain ⟨u, hu, hext⟩ := h.take ht
      obtain ⟨r', hr', hext'⟩ := ih hext hs
      exact ⟨r', Except.bind_eq_ok_iff.2 ⟨u, hu, hr'⟩, hext'⟩

theorem positional (h : r.ExtendsTo s) (hs : s.positional l word = .ok s') :
    ∃ r', r.positional l word = .ok r' ∧ r'.ExtendsTo s' := by
  rw [Reading.positional] at hs ⊢
  split at hs
  · next haccepts =>
    obtain ⟨t, ht, hs⟩ := Except.ok_of_bind hs
    obtain rfl := Except.ok.inj hs
    obtain ⟨u, hu, hplain, -, hflags⟩ := h.settled ht
    have haccepts' : r.acceptsPlain l = true := by
      rw [acceptsPlain_of_settle hu, ← hflags.contains_iff (by decide),
        ← acceptsPlain_of_settle ht, haccepts]
    rw [if_pos haccepts']
    exact ⟨_, Except.bind_eq_ok_iff.2 ⟨u, hu, rfl⟩, .of_flags hplain rfl hflags⟩
  · cases hs

theorem dashes (h : r.ExtendsTo s) :
    ({ r with plain := true } : Reading).ExtendsTo { s with plain := true } where
  plain := rfl
  awaits := h.awaits
  flags := h.flags
  settle t ht := by
    rw [settle_plain, Except.map_eq_ok_iff] at ht
    obtain ⟨t, ht, rfl⟩ := ht
    obtain ⟨u, hu, hflags⟩ := h.settle t ht
    refine ⟨{ u with plain := true }, ?_, hflags⟩
    rw [settle_plain, hu]
    rfl

theorem argument (h : r.ExtendsTo s) (hs : s.argument l word = .ok s') :
    ∃ r', r.argument l word = .ok r' ∧ r'.ExtendsTo s' := by
  unfold Reading.argument at hs ⊢
  rw [h.plain, h.awaits]
  by_cases hplain : s.plain = true
  · rw [if_pos hplain] at hs ⊢
    exact h.positional hs
  · rw [if_neg hplain] at hs ⊢
    split at hs
    · obtain rfl := Except.ok.inj hs
      exact ⟨_, rfl, h.dashes⟩
    · exact h.long hs
    · exact h.short hs
    · split at hs
      · next o ho =>
        obtain rfl := Except.ok.inj hs
        exact ⟨_, rfl, .of_flags rfl rfl (h.flags (by rw [ho]; rfl))⟩
      · exact h.positional hs

theorem finish (h : r.ExtendsTo s) {g : Flags} (hs : s.finish l = .ok g) :
    ∃ f, r.finish l = .ok f ∧ f.ExtendsTo g := by
  obtain ⟨t, ht, hs⟩ := Except.ok_of_bind hs
  obtain ⟨⟨⟩, hcheck, hs⟩ := Except.ok_of_bind hs
  obtain rfl := Except.ok.inj hs
  obtain ⟨u, hu, -, -, hflags⟩ := h.settled ht
  refine ⟨u.flags, Except.bind_eq_ok_iff.2 ⟨u, hu, ?_⟩, hflags⟩
  rw [hflags.check (ofUsage_ok hcheck)]
  rfl

/-- What only the second reading is given steers reporting. -/
theorem report (h : r.ExtendsTo s) (ho : o ∈ reportingOptions) (ht : s.settle = .ok t)
    (hplain : s'.plain = t.plain) (hawaits : s'.awaits = none)
    (hsettle : ∀ v, s'.settle = .ok v → ∃ value, t.flags.add o value = .ok v.flags) :
    r.ExtendsTo s' where
  plain := by rw [h.plain, hplain, (settle_ok ht).1]
  awaits := by rw [h.awaits, hawaits, awaits_of_settle ht]
  flags hsome := by
    rw [hawaits] at hsome
    cases hsome
  settle v hv := by
    obtain ⟨u, hu, hflags⟩ := h.settle t ht
    obtain ⟨value, hadd⟩ := hsettle v hv
    exact ⟨u, hu, hflags.report ho hadd⟩

theorem report_add (h : r.ExtendsTo s) (ho : o ∈ reportingOptions)
    (hs : s.add o value = .ok s') : r.ExtendsTo s' := by
  obtain ⟨t, ht, hs⟩ := Except.ok_of_bind hs
  obtain ⟨g, hg, hs⟩ := Except.ok_of_bind hs
  obtain rfl := Except.ok.inj hs
  have hpending := (settle_ok ht).2
  refine h.report ho ht rfl (by rw [Reading.awaits, hpending]) fun v hv ↦ ?_
  rw [settle_of_none (r := { t with flags := g }) hpending] at hv
  obtain rfl := Except.ok.inj hv
  exact ⟨value, ofUsage_ok hg⟩

theorem report_hold (h : r.ExtendsTo s) (ho : o ∈ reportingOptions)
    (hs : s.hold o value = .ok s') : r.ExtendsTo s' := by
  obtain ⟨t, ht, rfl⟩ := hold_eq_ok_iff.1 hs
  refine h.report ho ht rfl rfl fun v hv ↦ ?_
  obtain ⟨g, hg, hv⟩ := Except.ok_of_bind hv
  obtain rfl := Except.ok.inj hv
  exact ⟨value, ofUsage_ok hg⟩

end ExtendsTo

/-- Behind two dashes only the name of a shell is taken, and a shell is taken once. -/
theorem plain_shell (hs : s.plain = true) (hpending : s.pending = some (.shell, some word))
    (hword : CompletionShell.parse? word = none) (args : List String) {x : List (Level × Flags)} :
    readFrom l s args ≠ .ok x := by
  intro h
  cases args with
  | nil =>
    obtain ⟨f, hf, -⟩ := Except.ok_of_bind h
    obtain ⟨t, ht, -⟩ := Except.ok_of_bind hf
    rw [settle, hpending] at ht
    obtain ⟨g, hg, -⟩ := Except.ok_of_bind ht
    have hadd := ofUsage_ok hg
    rw [Flags.add, if_neg (Flags.not_given_of_add hadd)] at hadd
    obtain ⟨shell, hshell, -⟩ := Except.ok_of_bind hadd
    rw [hword, Flags.oneOf] at hshell
    cases hshell
  | cons arg args =>
    have haccepts : s.acceptsPlain l = false := by simp [acceptsPlain, hpending]
    rw [readFrom, hs, Bool.true_or, if_pos rfl, argument, if_pos hs, positional, haccepts] at h
    cases h

theorem plain_dash (hs : s.plain = true) {text : List Char} (hword : word.toList = '-' :: text)
    (rest : List String) {x : List (Level × Flags)} : readFrom l s (word :: rest) ≠ .ok x := by
  intro h
  rw [readFrom_dash s hword, argument, if_pos hs, positional, Except.bind_eq_ok_iff] at h
  obtain ⟨s', hs', h⟩ := h
  split at hs'
  · obtain ⟨t, ht, hs'⟩ := Except.ok_of_bind hs'
    obtain rfl := Except.ok.inj hs'
    have hshell : CompletionShell.parse? word = none := by
      unfold CompletionShell.parse?
      split
      case h_6 => rfl
      all_goals cases hword
    have hplain : t.plain = true := (settle_ok ht).1.trans hs
    exact plain_shell (s := { t with pending := some (.shell, some word) }) hplain rfl hshell rest h
  · cases hs'

theorem argument_bare (hs : s.plain = false) (known : (o, word) ∈ bareWords) :
    s.argument l word = s.take l o "" := by
  have hletter {c : Char} (ho : l.short? c = some o) : short l [c] s = s.take l o "" := by
    rw [short, ho]
    exact bind_pure (s.take l o "")
  simp only [bareWords, List.mem_cons, List.not_mem_nil, or_false, Prod.mk.injEq] at known
  rcases known with ⟨rfl, rfl⟩ | ⟨rfl, rfl⟩ | ⟨rfl, rfl⟩ | ⟨rfl, rfl⟩
  · have hword : "--verbose".toList = '-' :: '-' :: "verbose".toList := rfl
    rw [argument_dashes hs hword (by decide)]
    cases l <;> rfl
  · rw [argument, if_neg (by simp [hs])]
    exact hletter (by cases l <;> rfl)
  · have hword : "--quiet".toList = '-' :: '-' :: "quiet".toList := rfl
    rw [argument_dashes hs hword (by decide)]
    cases l <;> rfl
  · rw [argument, if_neg (by simp [hs])]
    exact hletter (by cases l <;> rfl)

theorem argument_setting {name : String} (hs : s.plain = false)
    (known : (o, name) ∈ settingNames) : s.argument l ("--" ++ name) = s.await o := by
  have hne : ∀ p ∈ settingNames, p.2.toList ≠ [] := by decide
  rw [argument_dashes hs (toList_dashed name) (hne _ known)]
  simp only [settingNames, List.mem_cons, List.not_mem_nil, or_false, Prod.mk.injEq] at known
  rcases known with ⟨rfl, rfl⟩ | ⟨rfl, rfl⟩ <;> cases l <;> rfl

theorem argument_setting_attached {name : String} (hs : s.plain = false)
    (known : (o, name) ∈ settingNames) :
    s.argument l ("--" ++ name ++ "=" ++ value) = s.take l o value := by
  have hlong : s.long l (name.toList ++ '=' :: value.toList) =
      s.take l o (String.ofList value.toList) := by
    simp only [settingNames, List.mem_cons, List.not_mem_nil, or_false, Prod.mk.injEq] at known
    rcases known with ⟨rfl, rfl⟩ | ⟨rfl, rfl⟩ <;> cases l <;> rfl
  rw [argument_dashes hs (toList_dashed_value name value) (by simp), hlong, String.ofList_toList]

/-- A flag for reporting is read, and nothing else changes. Where a value has to come, or behind two
dashes, it is not read at all. -/
theorem ExtendsTo.readFrom_flag (h : r.ExtendsTo s) (b : ReportingFlag) (rest : List String)
    {x : List (Level × Flags)} (hx : readFrom l s (b.words ++ rest) = .ok x) :
    ∃ s', r.ExtendsTo s' ∧ readFrom l s' rest = .ok x := by
  cases hs : s.plain with
  | true =>
    obtain ⟨word, text, more, hwords, hword⟩ := b.exists_dash
    rw [hwords, List.cons_append] at hx
    exact absurd hx (plain_dash hs hword _)
  | false =>
    cases b with
    | bare o word known =>
      obtain ⟨text, hword⟩ := exists_dash_bareWords known
      rw [ReportingFlag.words, List.singleton_append, readFrom_dash s hword,
        argument_bare hs known] at hx
      obtain ⟨s', hs', hx⟩ := Except.ok_of_bind hx
      have hadd := (take_eq_ok_iff.1 hs').2.2
      exact ⟨s', h.report_add (mem_of_bareWords known) hadd, hx⟩
    | setting o name value attached known =>
      have ho : o ∈ reportingOptions := mem_of_settingNames known
      rw [ReportingFlag.words] at hx
      split at hx
      · rw [List.singleton_append, readFrom_dash s (toList_dashed_value name value),
          argument_setting_attached hs known] at hx
        obtain ⟨s', hs', hx⟩ := Except.ok_of_bind hx
        exact ⟨s', h.report_add ho (take_eq_ok_iff.1 hs').2.2, hx⟩
      · rw [List.cons_append, List.singleton_append, readFrom_dash s (toList_dashed name),
          argument_setting hs known, readFrom_await hs] at hx
        obtain ⟨-, s', hs', hx⟩ := hx
        exact ⟨s', h.report_hold ho hs', hx⟩

/-- Without the flags for reporting the same levels are read, with flags that extend to those that
are read with them. -/
theorem ExtendsTo.readFrom (h : r.ExtendsTo s) {base args : List String}
    (hargs : WithReporting base args) {x : List (Level × Flags)}
    (hx : readFrom l s args = .ok x) : ∃ y, readFrom l r base = .ok y ∧
      List.Forall₂ (fun p q ↦ p.1 = q.1 ∧ p.2.ExtendsTo q.2) y x := by
  -- A word is read by both, in the same way; the words of a flag only by the second.
  induction hargs generalizing l r s x with
  | nil =>
    rw [Command.readFrom] at hx ⊢
    obtain ⟨g, hg, hx⟩ := Except.ok_of_bind hx
    obtain rfl := Except.ok.inj hx
    obtain ⟨f, hf, hfg⟩ := h.finish hg
    refine ⟨_, Except.bind_eq_ok_iff.2 ⟨f, hf, rfl⟩, .cons ⟨rfl, hfg⟩ .nil⟩
  | flag b hargs ih =>
    obtain ⟨s', hs', hx⟩ := h.readFrom_flag b _ hx
    exact ih hs' hx
  | @word base args word hargs ih =>
    have hargument {x : List (Level × Flags)}
        (hx : (s.argument l word >>= fun s ↦ Command.readFrom l s args) = .ok x) :
        ∃ y, (r.argument l word >>= fun r ↦ Command.readFrom l r base) = .ok y ∧
          List.Forall₂ (fun p q ↦ p.1 = q.1 ∧ p.2.ExtendsTo q.2) y x := by
      obtain ⟨s', hs', hx⟩ := Except.ok_of_bind hx
      obtain ⟨r', hr', hext⟩ := h.argument hs'
      obtain ⟨y, hy, hyx⟩ := ih hext hx
      exact ⟨y, Except.bind_eq_ok_iff.2 ⟨r', hr', hy⟩, hyx⟩
    rw [Command.readFrom] at hx ⊢
    rw [h.plain, h.awaits]
    split at hx
    · next hvalue =>
      rw [if_pos hvalue]
      exact hargument hx
    · next hvalue =>
      rw [if_neg hvalue]
      split at hx
      · next c hc =>
        obtain ⟨inner, hinner, hx⟩ := Except.ok_of_bind hx
        obtain ⟨g, hg, hx⟩ := Except.ok_of_bind hx
        obtain rfl := Except.ok.inj hx
        obtain ⟨y, hy, hyx⟩ := ih (.of_flags rfl rfl (.refl {})) hinner
        obtain ⟨f, hf, hfg⟩ := h.finish hg
        refine ⟨(l, f) :: y, Except.bind_eq_ok_iff.2 ⟨y, hy, ?_⟩, .cons ⟨rfl, hfg⟩ hyx⟩
        exact Except.bind_eq_ok_iff.2 ⟨f, hf, rfl⟩
      · split at hx
        · cases hx
        · next hhelp =>
          rw [if_neg hhelp]
          exact hargument hx

end Reading

/-- The last level decides, and its flags ask for the same. -/
theorem task_ofLevels {y x : List (Level × Flags)}
    (h : List.Forall₂ (fun p q ↦ p.1 = q.1 ∧ p.2.ExtendsTo q.2) y x) :
    (Invocation.ofLevels y).task = (Invocation.ofLevels x).task := by
  simp only [Invocation.ofLevels]
  induction h with
  | nil => rfl
  | @cons p q y x hpq hyx ih =>
    cases hyx with
    | nil =>
      rw [List.getLast?_singleton, List.getLast?_singleton]
      simp only [hpq.1, hpq.2.ofFlags]
    | cons _ _ =>
      rw [List.getLast?_cons_cons, List.getLast?_cons_cons]
      exact ih

/-- Without the flags for reporting a command line asks for the same. -/
theorem exists_parse {base args : List String} (hargs : WithReporting base args) {i : Invocation}
    (hi : Invocation.parse args = .ok i) :
    ∃ j, Invocation.parse base = .ok j ∧ j.task = i.task := by
  rw [Invocation.parse, Except.map_eq_ok_iff] at hi
  obtain ⟨x, hx, rfl⟩ := hi
  obtain ⟨y, hy, hyx⟩ := (Reading.ExtendsTo.of_flags rfl rfl (.refl {})).readFrom hargs hx
  exact ⟨.ofLevels y, Except.map_eq_ok_iff.2 ⟨y, hy, rfl⟩, task_ofLevels hyx⟩

section Example

def quietLine : List String :=
  ["-q", "build", "--config", "shop.json", "--output-dir", "types", "--tsc", "./tool"]

def eventLine : List String :=
  ["build", "--config", "shop.json", "--message-format", "json", "--output-dir", "types",
    "--color=never", "--tsc", "./tool"]

theorem parse_quietLine :
    Invocation.parse quietLine = .ok ⟨{ quiet := true }, .build toolFlags⟩ := rfl

theorem parse_eventLine :
    Invocation.parse eventLine = .ok ⟨{ color := .never, format := .json }, .build toolFlags⟩ := rfl

end Example

end AmbientTypes.Command
