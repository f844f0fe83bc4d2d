import Hypertext.Fault
import Hypertext.Proofs.Process
import Hypertext.Proofs.Response.Decided

/-!
# Settings are read once

The settings of a process (`get_settings`) are read from its environment when they are first
needed, and stay as they are from then on. Each reading loads the file of variables first, so that
a reading that fails leaves an environment with the file loaded. An act that does not need the
settings leaves them alone, and a response needs them only once its body is written.

* `Act.looksUp`: which acts look the settings up. `Act.given`: what an act comes to with settings at
  hand. `Act.outside`: what others do to what settings are read from.
* `Act.run_given`, `Act.run_refused`: an act that looks the settings up.
* `Act.run_aloof`: an act that does not.
* `Process.cache_after`: the settings of a process are those of the first reading that succeeds.
* **`settings_once`**: what holds in every run.
-/

namespace Hypertext

/-! ## Acts with settings at hand -/

namespace Act

/-- The act looks the settings up. A response does if its caller does not say whether to compress,
and if it gets as far as that. -/
def looksUp : Act → Bool
  | readSettings | configure none => true
  | respond _ content options =>
    options.compress.isNone && (fault? (Response.write options.asDocument content).outcome).isNone
  | _ => false

/-- What the act comes to with the settings `s` at hand, and the logger that it leaves. Neither the
environment nor what is fixed comes in. -/
def given (brotli : ByteArray → ByteArray) (s : Settings) (l : Log.Logger) :
    Act → Answer × Log.Logger
  | setEnvironment _ => (.nothing, l)
  | setFile _ => (.nothing, l)
  | readSettings => (.settings (.ok s), l)
  | addForeign n level => (.nothing, l.add (.foreign n level))
  | configure own => (.handler (l.configure (own.getD s)).1, (l.configure (own.getD s)).2)
  | respond request content options =>
    (.response (Response.decided brotli request content options
      (options.compress.getD s.compress)), l)

/-- What the act itself changes of what settings are read from. -/
def outside (src : Settings.Source) : Act → Settings.Source
  | setEnvironment env => { src with environment := env }
  | setFile load => { src with load := load }
  | _ => src

theorem cache_outside (src : Settings.Source) (a : Act) : (a.outside src).cache = src.cache := by
  cases a <;> rfl

end Act

/-! ## Acts that look the settings up -/

theorem Settings.kind_of_ofEnvironment {env : Environment} {f : Fault}
    (h : Settings.ofEnvironment env = .error f) : f.kind = "ValueError" := by
  unfold Settings.ofEnvironment Settings.indentOf at h
  split at h
  · cases h
  · cases h
  · split at h
    · cases h
    · cases h
      rfl

/-- A response that looks the settings up has its body, and its caller does not say whether to
compress. -/
theorem exists_body_of_looksUp {request : Request} {content : List Value}
    {options : ResponseOptions} (h : (Act.respond request content options).looksUp = true) :
    ∃ body, options.compress = none ∧
      (Response.write options.asDocument content).outcome = .ok body := by
  obtain ⟨free, written⟩ := Bool.and_eq_true_iff.mp h
  cases hw : (Response.write options.asDocument content).outcome with
  | ok body => exact ⟨body, Option.isNone_iff_eq_none.mp free, rfl⟩
  | error f =>
    rw [hw] at written
    cases written

/-- A response that does not look the settings up goes the same with any. -/
theorem exists_response_of_aloof {request : Request} {content : List Value}
    {options : ResponseOptions} (brotli : ByteArray → ByteArray) (src : Settings.Source)
    (h : (Act.respond request content options).looksUp = false) :
    ∃ x, respond brotli request content options src = (x, src) ∧ ∀ s : Settings,
      Response.decided brotli request content options (options.compress.getD s.compress) = x := by
  cases hw : (Response.write options.asDocument content).outcome with
  | error f =>
    obtain ⟨hx, hd⟩ := respond_unwritten brotli request src hw
    exact ⟨_, hx, fun s => hd _⟩
  | ok body =>
    cases hc : options.compress with
    | none =>
      rw [Act.looksUp, hc, hw] at h
      cases h
    | some b =>
      refine ⟨Response.decided brotli request content options b, ?_, fun s => rfl⟩
      rw [respond_written hw, hc]
      rfl

namespace Act

variable {p : Process} {a : Act} {s : Settings} {src : Settings.Source} {f : Fault}

/-- **An act that looks the settings up and gets them** sees nothing else of the environment. -/
theorem run_given (h : a.looksUp = true) (hr : Settings.read p.source = (.ok s, src)) :
    a.run p = ((a.given p.brotli s p.logger).1,
      { p with source := src, logger := (a.given p.brotli s p.logger).2 }) := by
  cases a with
  | readSettings =>
    simp only [run, hr]
    rfl
  | configure own =>
    cases own with
    | some own => cases h
    | none =>
      simp only [run_configure, hr]
      rfl
  | respond request content options =>
    obtain ⟨body, free, hw⟩ := exists_body_of_looksUp h
    have responded : Hypertext.respond p.brotli request content options p.source =
        (Response.decided p.brotli request content options s.compress, src) := by
      rw [respond_written hw, free, Response.decideCompress, hr]
    simp only [run, responded, given, free, Option.getD_none]
  | _ => cases h

/-- **An act that looks the settings up and does not get them** says so. It leaves nothing behind
but the environment with the file loaded. -/
theorem run_refused (h : a.looksUp = true) (hr : Settings.read p.source = (.error f, src)) :
    ∃ answer : Answer, a.run p = (answer, { p with source := src }) ∧ answer.fault? = some f := by
  cases a with
  | readSettings => exact ⟨.settings (.error f), by simp only [run, hr], rfl⟩
  | configure own =>
    cases own with
    | some own => cases h
    | none => exact ⟨.handler (.error f), by simp only [run_configure, hr], rfl⟩
  | respond request content options =>
    obtain ⟨body, free, hw⟩ := exists_body_of_looksUp h
    have responded : Hypertext.respond p.brotli request content options p.source =
        (⟨(Response.write options.asDocument content).events, .error f⟩, src) := by
      rw [respond_written hw, free, Response.decideCompress, hr]
    exact ⟨.response ⟨(Response.write options.asDocument content).events, .error f⟩,
      by simp only [run, responded], rfl⟩
  | _ => cases h

/-- **An act that does not look the settings up** reads nothing, and goes the same with any. -/
theorem run_aloof (h : a.looksUp = false) : (a.run p).2.source = a.outside p.source ∧
    ∀ s, ((a.run p).1, (a.run p).2.logger) = a.given p.brotli s p.logger := by
  cases a with
  | readSettings => cases h
  | configure own =>
    cases own with
    | some own => exact ⟨rfl, fun _ => rfl⟩
    | none => cases h
  | respond request content options =>
    obtain ⟨x, hx, hd⟩ := exists_response_of_aloof p.brotli p.source h
    simp only [run, hx, given, hd, implies_true, and_true]
    rfl
  | _ => exact ⟨rfl, fun _ => rfl⟩

end Act

/-! ## Moments -/

namespace Moment

/-- The settings that the act would fix: those of the environment with the file loaded, if the act
looks them up and they can be read. -/
def parsed? (m : Moment) : Option Settings :=
  if m.act.looksUp then m.before.source.fromEnvironment.toOption else none

/-- The settings become fixed. -/
def fixes (m : Moment) : Bool := m.before.source.cache.isNone && m.after.source.cache.isSome

/-- **What one act does to what is fixed.** -/
theorem cache_after (m : Moment) :
    m.after.source.cache = m.before.source.cache.or m.parsed? := by
  unfold parsed?
  cases h : m.act.looksUp with
  | false =>
    rw [if_neg Bool.false_ne_true, Option.or_none, after, (Act.run_aloof h).1, Act.cache_outside]
  | true =>
    rw [if_pos rfl]
    cases hc : m.before.source.cache with
    | some s =>
      rw [after, Act.run_given h (Settings.read_fixed hc)]
      exact hc
    | none =>
      cases ho : m.before.source.fromEnvironment with
      | ok s =>
        rw [after, Act.run_given h (Settings.read_ok hc ho)]
        rfl
      | error f =>
        obtain ⟨answer, ha, -⟩ := Act.run_refused h (Settings.read_error hc ho)
        rw [after, ha]
        exact hc

end Moment

/-! ## Runs -/

/-- **What is fixed after a run** is what was fixed before it, or else what the first act fixes that
looks the settings up in an environment that can be read. -/
theorem Process.cache_after (p : Process) (acts : List Act) :
    (p.after acts).source.cache =
      p.source.cache.or ((p.moments acts).findSome? Moment.parsed?) := by
  induction acts generalizing p with
  | nil => exact (Option.or_none ..).symm
  | cons a rest ih =>
    show ((Moment.mk p a).after.after rest).source.cache = _
    rw [ih, Moment.cache_after, Option.or_assoc, Process.moments, List.findSome?_cons]
    cases (Moment.mk p a).parsed? <;> rfl

/-- **Settings become fixed once.** -/
theorem Process.countP_fixes_le (p : Process) (acts : List Act) :
    (p.moments acts).countP Moment.fixes ≤ if p.source.cache.isSome then 0 else 1 := by
  induction acts generalizing p with
  | nil => exact Nat.zero_le _
  | cons a rest ih =>
    let m : Moment := ⟨p, a⟩
    have kept : m.after.source.cache = p.source.cache.or m.parsed? := m.cache_after
    have later : ((m.after).moments rest).countP Moment.fixes ≤
        if m.after.source.cache.isSome then 0 else 1 := ih m.after
    rw [Process.moments, List.countP_cons]
    show ((m.after).moments rest).countP Moment.fixes + (if m.fixes then 1 else 0) ≤ _
    unfold Moment.fixes
    show _ + (if p.source.cache.isNone && m.after.source.cache.isSome then 1 else 0) ≤ _
    cases hp : p.source.cache with
    | some s =>
      rw [kept, hp] at later
      exact later
    | none =>
      cases ha : m.after.source.cache with
      | none =>
        rw [ha] at later
        exact later
      | some s =>
        rw [ha] at later
        exact Nat.add_le_add_right later 1

/-- How an act deals with the settings. -/
structure Moment.Orderly (m : Moment) : Prop where
  /-- An act that does not look the settings up reads and fixes nothing, and goes the same with any
  settings. -/
  aloof : m.act.looksUp = false → m.after.source = m.act.outside m.before.source ∧
    ∀ s, (m.answer, m.after.logger) = m.act.given m.before.brotli s m.before.logger
  /-- An act that looks up settings that are fixed sees these, -/
  fixed : m.act.looksUp = true → ∀ s, m.before.source.cache = some s →
    m.after.source = m.before.source ∧
      (m.answer, m.after.logger) = m.act.given m.before.brotli s m.before.logger
  /-- and else those of the environment with the file loaded, which are fixed then, -/
  first : m.act.looksUp = true → m.before.source.cache = none → ∀ s,
    m.before.source.fromEnvironment = .ok s → m.after.source = m.before.source.loaded.fix s ∧
      (m.answer, m.after.logger) = m.act.given m.before.brotli s m.before.logger
  /-- unless this environment cannot be read: then the act fails for that, and all that changes is
  that the file is loaded. -/
  refused : m.act.looksUp = true → m.before.source.cache = none → ∀ f,
    m.before.source.fromEnvironment = .error f → m.answer.fault? = some f ∧
      f.kind = "ValueError" ∧ m.after = { m.before with source := m.before.source.loaded }
  /-- What is wrong with the content of a response is said before anything about the settings. -/
  preferred : ∀ request content options, m.act = .respond request content options → ∀ f,
    (Response.write options.asDocument content).outcome = .error f →
      m.answer.fault? = some f ∧ m.after = m.before

theorem Moment.orderly (m : Moment) : m.Orderly := by
  have read {s : Settings} {src : Settings.Source} (h : m.act.looksUp = true)
      (hr : Settings.read m.before.source = (.ok s, src)) : m.after.source = src ∧
        (m.answer, m.after.logger) = m.act.given m.before.brotli s m.before.logger := by
    rw [answer, after, Act.run_given h hr]
    exact ⟨rfl, rfl⟩
  refine ⟨Act.run_aloof, fun h s hc => read h (Settings.read_fixed hc),
    fun h hc s ho => read h (Settings.read_ok hc ho), fun h hc f ho => ?_,
    fun request content options ha f hw => ?_⟩
  · obtain ⟨refusal, run, hf⟩ := Act.run_refused h (Settings.read_error hc ho)
    rw [answer, after, run]
    exact ⟨hf, Settings.kind_of_ofEnvironment ho, rfl⟩
  · have responded := respond_unwritten m.before.brotli request m.before.source hw
    have run : (Act.respond request content options).run m.before =
        (.response ⟨(Response.write options.asDocument content).events, .error f⟩, m.before) := by
      simp only [Act.run, responded.1]
    rw [answer, after, ha, run]
    exact ⟨rfl, rfl⟩

/-- **The settings of a process are read once, and only when needed**, over every run of a process
in which nothing is fixed. They become those of the first act that looks them up in an environment
that can be read once the file of variables is loaded into it, at one moment at most, and never
change from then on. Every act sees them as they are fixed, fails because they cannot be read, or
goes the same with any. -/
theorem settings_once (p : Process) (h : p.source.cache = none) (acts : List Act) :
    (p.after acts).source.cache = (p.moments acts).findSome? Moment.parsed? ∧
    (p.moments acts).countP Moment.fixes ≤ 1 ∧
    (∀ xs ys s, acts = xs ++ ys → (p.after xs).source.cache = some s →
      (p.after acts).source.cache = some s) ∧
    ∀ m ∈ p.moments acts, m.Orderly := by
  refine ⟨?_, ?_, ?_, fun m _ => m.orderly⟩
  · rw [p.cache_after, h, Option.none_or]
  · have once := p.countP_fixes_le acts
    rw [h] at once
    exact once
  · rintro xs ys s rfl hs
    rw [Process.after_append, Process.cache_after, hs, Option.some_or]

/-- A file with a variable that cannot be read and one that can. -/
def muddledFile : Environment := [("TINYDOM_LOG_INDENT", "two"), ("TINYDOM_COMPRESS", "no")]

/-- A process with no variables but those of the file. -/
def fileProcess : Process :=
  ⟨⟨.filledFrom muddledFile, [], none⟩, .fresh, Response.compressedPage⟩

/-- A request of a client that accepts every encoding. -/
def openRequest : Request := ⟨"/", some "br"⟩

/-- A response that cannot be written, to a caller who does not say whether to compress. -/
def unwritable : Act := .respond openRequest [.node (.comment (.str "-->"))] {}

/-- Readings that fail, one that succeeds with a variable of the file and one of the environment,
and one from a file that does not count any more. -/
def readings : List Act :=
  [unwritable, .readSettings, .configure (some {}), .setEnvironment [("TINYDOM_LOG_INDENT", "2")],
   .respond openRequest [.str "x"] {}, .setFile (.filledFrom []), .setEnvironment muddledFile,
   .readSettings]

/-- The settings of this run. -/
def readingSettings : Settings := { logIndent := some 2, compress := false }

/-- The moment behind `n` of these acts. -/
def readingAt (n : Nat) (a : Act) : Moment := ⟨fileProcess.after (readings.take n), a⟩

theorem settings_once_readings :
    fileProcess.source.cache = none ∧
    (fileProcess.after readings).source.cache = some readingSettings ∧
    (fileProcess.moments readings).countP Moment.fixes ≤ 1 ∧
    (readingAt 0 unwritable).answer.fault? = some .commentTerminator ∧
    (readingAt 0 unwritable).after.source.environment = [] ∧
    (readingAt 1 .readSettings).answer.fault? = some (.misuse (.malformedNumber "two")) ∧
    (readingAt 1 .readSettings).after.source.environment = muddledFile ∧
    (readingAt 1 .readSettings).after.source.cache = none ∧
    ((readingAt 4 (.respond openRequest [.str "x"] {})).answer,
      (readingAt 4 (.respond openRequest [.str "x"] {})).after.logger) =
        (Act.respond openRequest [.str "x"] {}).given Response.compressedPage readingSettings
          (readingAt 4 (.respond openRequest [.str "x"] {})).before.logger ∧
    (readingAt 7 .readSettings).answer = .settings (.ok readingSettings) := by
  obtain ⟨found, most, kept, each⟩ := settings_once fileProcess rfl readings
  have orderly {n : Nat} {a : Act} (ys : List Act) (h : readings = readings.take n ++ a :: ys) :
      (readingAt n a).Orderly :=
    each _ (Process.mem_moments.mpr ⟨readings.take n, ys, h, rfl⟩)
  have unwritten := orderly (n := 0) (a := unwritable) (readings.drop 1) rfl
  have unread := orderly (n := 1) (a := .readSettings) (readings.drop 2) rfl
  have responding :=
    orderly (n := 4) (a := .respond openRequest [.str "x"] {}) (readings.drop 5) rfl
  have again := orderly (n := 7) (a := .readSettings) [] rfl
  have fixed : (fileProcess.after (readings.take 5)).source.cache = some readingSettings := by rfl
  obtain ⟨first, untouched⟩ := unwritten.preferred _ _ _ rfl .commentTerminator (by rfl)
  obtain ⟨failed, -, loaded⟩ :=
    unread.refused rfl (by rfl) (.misuse (.malformedNumber "two")) (by rfl)
  have answered := (responding.first rfl (by rfl) readingSettings (by rfl)).2
  have final := (again.fixed rfl readingSettings (by rfl)).2
  refine ⟨rfl, kept (readings.take 5) (readings.drop 5) _ rfl fixed, most, first, ?_, failed, ?_,
    ?_, answered, congrArg Prod.fst final⟩
  · rw [untouched]
    rfl
  · rw [loaded]
    rfl
  · rw [loaded]
    rfl

end Hypertext
