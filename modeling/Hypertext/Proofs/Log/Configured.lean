import Mathlib.Data.List.Induction
import Mathlib.Data.List.Perm.Basic
import Hypertext.Proofs.Log.Handlers
import Hypertext.Proofs.Process

/-!
# The logger over a run

Others may add handlers at any time, and every call of `configure_logging` may fail half way. All
the same the logger keeps one JSON handler at most, which stays where it is and goes along with the
logger's level.

* `foreignOf`: the handlers that others have added, in the order in which they were first added.
* `Moment.logger_after`: what an act does to the logger.
* `Lineup`: the JSON handlers and the others after what has happened. `Lineup.step`: one act keeps
  it, and `Lineup.run`, a run does.
* **`configured_in_step`**: what holds after every run.
-/

namespace Hypertext

/-! ## One act -/

namespace Moment

/-- The settings of a call of configuration, if it can have any. -/
def settings? (m : Moment) : Option Settings :=
  match m.act with
  | .configure (some s) => some s
  | .configure none => (Settings.read m.before.source).1.toOption
  | _ => none

/-- The handler that somebody else adds. -/
def foreign? (m : Moment) : Option Log.Handler :=
  match m.act with
  | .addForeign n level => some (.foreign n level)
  | _ => none

/-- A call of configuration succeeds. -/
def succeeds (m : Moment) : Bool :=
  match m.answer with
  | .handler (.ok _) => true
  | _ => false

variable {m : Moment} {s : Settings}

/-- **What an act does to the logger.** A call that has settings configures it from them. Any other
act leaves it as it is, unless it adds a handler. -/
theorem logger_after (m : Moment) : match m.settings? with
    | some s => m.answer = .handler (m.before.logger.configure s).1 ∧
      m.after.logger = (m.before.logger.configure s).2 ∧ m.foreign? = none
    | none => m.succeeds = false ∧ m.after.logger = match m.foreign? with
      | some x => m.before.logger.add x
      | none => m.before.logger := by
  obtain ⟨p, a⟩ := m
  cases a with
  | configure given =>
    cases given with
    | some s => exact ⟨rfl, rfl, rfl⟩
    | none =>
      simp only [settings?, answer, after, succeeds, Act.run_configure]
      obtain ⟨f | s, source⟩ := Settings.read p.source
      · exact ⟨rfl, rfl⟩
      · exact ⟨rfl, rfl, rfl⟩
  | _ => exact ⟨rfl, rfl⟩

theorem logger_of_settings (h : m.settings? = some s) :
    m.answer = .handler (m.before.logger.configure s).1 ∧
      m.after.logger = (m.before.logger.configure s).2 ∧ m.foreign? = none := by
  have after := m.logger_after
  rwa [h] at after

theorem logger_of_none (h : m.settings? = none) : m.succeeds = false ∧
    m.after.logger = match m.foreign? with
      | some x => m.before.logger.add x
      | none => m.before.logger := by
  have after := m.logger_after
  rwa [h] at after

/-- A call that succeeds returns the JSON handler. -/
theorem json?_of_answer {j : Log.Handler} (h : m.answer = .handler (.ok j)) :
    m.after.logger.json? = some j := by
  have succeeds : m.succeeds = true := by rw [Moment.succeeds, h]
  cases hs : m.settings? with
  | none =>
    rw [(logger_of_none hs).1] at succeeds
    cases succeeds
  | some s =>
    obtain ⟨answer, after, -⟩ := logger_of_settings hs
    rw [after]
    exact Log.Logger.json?_configure (Answer.handler.inj (answer.symm.trans h))

/-- Settings that cannot be read change nothing, but that the file of variables is loaded. -/
theorem after_of_unread {f : Fault} (ha : m.act = .configure none)
    (h : (Settings.read m.before.source).1 = .error f) : m.answer = .handler (.error f) ∧
      m.after = { m.before with source := m.before.source.loaded } := by
  obtain ⟨p, a⟩ := m
  cases ha
  simp only [answer, after, Act.run_configure]
  cases hr : Settings.read p.source with
  | mk r source =>
    rw [hr] at h
    cases h
    rw [(Settings.source_of_read_error hr).1]
    exact ⟨rfl, rfl⟩

/-- **No act takes a handler away** or touches what is no JSON handler. -/
theorem keeps (m : Moment) : m.before.logger.Keeps m.after.logger := by
  cases h : m.settings? with
  | some s =>
    rw [(logger_of_settings h).2.1]
    exact Log.Logger.keeps_configure s _
  | none =>
    rw [(logger_of_none h).2]
    cases m.foreign? with
    | some x => exact Log.Logger.keeps_add x _
    | none => exact .refl _

end Moment

namespace Log

/-! ## What has happened -/

/-- The settings of all calls of configuration that could have any, in order. -/
def settingsOf (past : List Moment) : List Settings := past.filterMap Moment.settings?

/-- The settings of the calls that succeeded, in order. -/
def acceptedOf (past : List Moment) : List Settings :=
  (past.filter Moment.succeeds).filterMap Moment.settings?

/-- The level of the last call that succeeded; before the first, none is set. -/
def lastLevel (past : List Moment) : Int :=
  ((acceptedOf past).getLast?.bind fun s => level? s.logLevel).getD 0

/-- The handlers that others have added, in order; to add one once more does nothing. -/
def foreignOf (past : List Moment) : List Handler :=
  (past.filterMap Moment.foreign?).foldl (fun hs h => h.addTo hs) []

section Moments

variable {past : List Moment} {m : Moment}

theorem settingsOf_concat (past : List Moment) (m : Moment) :
    settingsOf (past ++ [m]) = settingsOf past ++ m.settings?.toList := by
  rw [settingsOf, List.filterMap_append]
  cases h : m.settings? <;> simp [h, settingsOf]

theorem acceptedOf_concat (past : List Moment) (m : Moment) : acceptedOf (past ++ [m]) =
    acceptedOf past ++ if m.succeeds then m.settings?.toList else [] := by
  rw [acceptedOf, List.filter_append, List.filterMap_append]
  cases hm : m.succeeds <;> cases h : m.settings? <;> simp [h, hm, acceptedOf]

theorem foreignOf_concat (past : List Moment) (m : Moment) : foreignOf (past ++ [m]) =
    match m.foreign? with
    | some h => h.addTo (foreignOf past)
    | none => foreignOf past := by
  rw [foreignOf, List.filterMap_append]
  cases h : m.foreign? <;> simp [h, foreignOf]

theorem lastLevel_of_nil (h : settingsOf past = []) : lastLevel past = 0 := by
  have none : acceptedOf past = [] := by
    refine List.filterMap_eq_nil_iff.mpr fun m hm => ?_
    exact List.filterMap_eq_nil_iff.mp h m (List.mem_filter.mp hm).1
  rw [lastLevel, none]
  rfl

theorem lastLevel_concat (h : m.succeeds = false) : lastLevel (past ++ [m]) = lastLevel past := by
  rw [lastLevel, acceptedOf_concat, h]
  simp [lastLevel]

theorem lastLevel_concat_of_settings {s : Settings} (hs : m.settings? = some s)
    (h : m.succeeds = true) : lastLevel (past ++ [m]) = (level? s.logLevel).getD 0 := by
  rw [lastLevel, acceptedOf_concat, h, hs]
  simp

theorem mem_addTo {h x : Handler} {hs : List Handler} (hx : x ∈ h.addTo hs) : x ∈ hs ∨ x = h := by
  unfold Handler.addTo at hx
  split at hx
  · exact .inl hx
  · simpa using hx

theorem nodup_addTo {h : Handler} {hs : List Handler} (hn : (hs.map Handler.id).Nodup) :
    ((h.addTo hs).map Handler.id).Nodup := by
  unfold Handler.addTo
  split
  · exact hn
  · rename_i absent
    have new : h.id ∉ hs.map Handler.id := by
      intro hm
      obtain ⟨x, hx, same⟩ := List.mem_map.mp hm
      exact absent (List.any_eq_true.mpr ⟨x, hx, decide_eq_true same⟩)
    rw [List.map_append, List.map_singleton, List.nodup_append]
    refine ⟨hn, List.nodup_singleton _, fun a ha b hb => ?_⟩
    obtain rfl := List.mem_singleton.mp hb
    rintro rfl
    exact new ha

/-- What others have added is of others, and told apart. -/
theorem foreignOf_spec (past : List Moment) : (∀ h ∈ foreignOf past, ∃ n level,
    h = .foreign n level) ∧ ((foreignOf past).map Handler.id).Nodup := by
  induction past using List.reverseRecOn with
  | nil => exact ⟨List.forall_mem_nil _, List.nodup_nil⟩
  | append_singleton past m ih =>
    rw [foreignOf_concat]
    cases hm : m.foreign? with
    | none => exact ih
    | some h =>
      refine ⟨fun x hx => ?_, nodup_addTo ih.2⟩
      rcases mem_addTo hx with hx | rfl
      · exact ih.1 x hx
      · unfold Moment.foreign? at hm
        split at hm
        · cases hm
          exact ⟨_, _, rfl⟩
        · cases hm

theorem isJson_foreign {h : Handler} (hm : m.foreign? = some h) :
    h.isJson = false ∧ ∀ n, h.id ≠ .own n := by
  unfold Moment.foreign? at hm
  split at hm
  · cases hm
    exact ⟨rfl, nofun⟩
  · cases hm

end Moments

/-! ## Runs -/

/-- The JSON handler as it stands after what has happened, if a call could have settings so far. -/
def jsonOf (past : List Moment) : Option Handler :=
  (settingsOf past).getLast?.map fun s => ⟨.own 0, .json s.logIndent, lastLevel past⟩

/-- How the logger stands after what has happened. -/
structure Lineup (past : List Moment) (l : Logger) : Prop where
  json : l.jsonHandlers = (jsonOf past).toList
  others : l.others = foreignOf past
  level : l.level = lastLevel past
  /-- The library has made no handler that is not there. -/
  made : l.made = l.jsonHandlers.length

namespace Lineup

variable {past : List Moment} {m : Moment} {l : Logger}

theorem json? (h : Lineup past l) : l.json? = jsonOf past := by
  rw [l.json?_eq_head?, h.json, Option.head?_toList]

/-- The handler that a call of configuration deals with is always the same one, and has the level of
the logger. -/
theorem own (h : Lineup past l) : l.own.id = .own 0 ∧ l.own.level = lastLevel past := by
  have own : l.own = (jsonOf past).getD (.made l.made) := by rw [Logger.own, h.json?]
  rw [own]
  cases hs : (settingsOf past).getLast? with
  | some s => rw [jsonOf, hs]; exact ⟨rfl, rfl⟩
  | none =>
    have none : jsonOf past = none := by rw [jsonOf, hs, Option.map_none]
    have made : l.made = 0 := by rw [h.made, h.json, none]; rfl
    rw [none, made, lastLevel_of_nil (List.getLast?_eq_none_iff.mp hs)]
    exact ⟨rfl, rfl⟩

/-- With one JSON handler at most, the library has made at most that one. -/
theorem made_withJson (h : Lineup past l) {j : Handler} (hj : j.isJson = true) :
    (l.withJson j).made = (l.withJson j).jsonHandlers.length := by
  rw [l.jsonHandlers_withJson hj, Logger.withJson, h.json?, h.made, h.json]
  cases jsonOf past <;> rfl

/-- An act that has no settings. -/
theorem quiet (h : Lineup past m.before.logger) (hs : m.settings? = none) :
    Lineup (past ++ [m]) m.after.logger := by
  obtain ⟨failed, after⟩ := m.logger_of_none hs
  have level : lastLevel (past ++ [m]) = lastLevel past := lastLevel_concat failed
  have same : jsonOf (past ++ [m]) = jsonOf past := by
    rw [jsonOf, settingsOf_concat, hs, Option.toList_none, List.append_nil, level, jsonOf]
  have foreign := foreignOf_concat past m
  cases hf : m.foreign? with
  | none =>
    rw [hf] at after foreign
    rw [after]
    exact ⟨h.json.trans (same ▸ rfl), h.others.trans foreign.symm, h.level.trans level.symm, h.made⟩
  | some x =>
    rw [hf] at after foreign
    rw [after]
    obtain ⟨plain, apart⟩ := isJson_foreign hf
    have json := m.before.logger.jsonHandlers_add plain
    have told : ∀ j ∈ m.before.logger.jsonHandlers, j.id ≠ x.id := by
      intro j hj
      rw [h.json, jsonOf] at hj
      obtain ⟨s, -, rfl⟩ := Option.map_eq_some_iff.mp (Option.mem_toList.mp hj)
      exact (apart 0).symm
    refine ⟨?_, ?_, h.level.trans level.symm, ?_⟩
    · rw [json, h.json, same]
    · rw [Logger.others_add plain told, h.others, foreign]
    · rw [json]
      exact h.made

/-- A call of configuration that has settings. -/
theorem configured (h : Lineup past m.before.logger) {s : Settings} (hs : m.settings? = some s) :
    Lineup (past ++ [m]) m.after.logger := by
  obtain ⟨answer, after, noForeign⟩ := m.logger_of_settings hs
  have foreign : foreignOf (past ++ [m]) = foreignOf past := by rw [foreignOf_concat, noForeign]
  obtain ⟨ownId, ownLevel⟩ := h.own
  have json (k : Int) (hk : lastLevel (past ++ [m]) = k) :
      (m.before.logger.withJson ⟨.own 0, .json s.logIndent, k⟩).jsonHandlers =
        (jsonOf (past ++ [m])).toList := by
    rw [m.before.logger.jsonHandlers_withJson rfl, jsonOf, settingsOf_concat, hs,
      Option.toList_some, List.getLast?_concat, h.json, hk]
    cases jsonOf past <;> rfl
  have others (k : Int) :
      (m.before.logger.withJson ⟨.own 0, .json s.logIndent, k⟩).others =
        foreignOf (past ++ [m]) := by
    rw [m.before.logger.others_withJson rfl, h.others, foreign]
  rw [after]
  cases hn : level? s.logLevel with
  | none =>
    rw [Logger.configure_unknown _ hn, ownId, ownLevel] at answer ⊢
    have failed : m.succeeds = false := by rw [Moment.succeeds, answer]
    have level : lastLevel (past ++ [m]) = lastLevel past := lastLevel_concat failed
    exact ⟨json _ level, others _, h.level.trans level.symm, h.made_withJson rfl⟩
  | some n =>
    rw [Logger.configure_known _ hn, ownId] at answer ⊢
    have done : m.succeeds = true := by rw [Moment.succeeds, answer]
    have level : lastLevel (past ++ [m]) = n := by
      rw [lastLevel_concat_of_settings hs done, hn, Option.getD_some]
    have made := h.made_withJson (j := ⟨.own 0, .json s.logIndent, n⟩) rfl
    exact ⟨json n level, others n, level.symm, made⟩

/-- **What one act keeps.** -/
theorem step (h : Lineup past m.before.logger) : Lineup (past ++ [m]) m.after.logger := by
  cases hs : m.settings? with
  | none => exact h.quiet hs
  | some s => exact h.configured hs

/-- **What a run keeps.** -/
theorem run (p : Process) (h : p.logger = .fresh) (acts : List Act) :
    Lineup (p.moments acts) (p.after acts).logger := by
  induction acts using List.reverseRecOn with
  | nil =>
    show Lineup [] p.logger
    rw [h]
    exact ⟨rfl, rfl, rfl, rfl⟩
  | append_singleton acts a ih =>
    rw [Process.moments_concat, Process.after_concat]
    exact Lineup.step (m := ⟨p.after acts, a⟩) ih

end Lineup

/-- The logger goes along with the calls of configuration. -/
structure InStep (past : List Moment) (l : Logger) : Prop where
  /-- There is no JSON handler before a call could have settings, and one after. -/
  one : l.handlers.countP Handler.isJson = if settingsOf past = [] then 0 else 1
  /-- The logger has the level of the last call that succeeded. -/
  level : l.level = lastLevel past
  /-- The JSON handler has the level of the logger, -/
  sameLevel : ∀ h ∈ l.handlers, h.isJson = true → h.level = l.level
  /-- and the indent of the last call that could have settings. -/
  indent : ∀ h ∈ l.handlers, h.isJson = true →
    ∃ s, (settingsOf past).getLast? = some s ∧ h.format = .json s.logIndent
  /-- The other handlers are those that others have added, as they were and in their order. -/
  foreign : l.others = foreignOf past
  /-- No handler is there twice. -/
  apart : (l.handlers.map Handler.id).Nodup

theorem Lineup.inStep {past : List Moment} {l : Logger} (h : Lineup past l) : InStep past l := by
  have stands {x : Handler} (hx : x ∈ l.handlers) (hj : x.isJson = true) : ∃ s,
      (settingsOf past).getLast? = some s ∧ ⟨.own 0, .json s.logIndent, lastLevel past⟩ = x := by
    have hm : x ∈ l.jsonHandlers := List.mem_filter.mpr ⟨hx, hj⟩
    rw [h.json, Option.mem_toList] at hm
    exact Option.map_eq_some_iff.mp hm
  refine ⟨?_, h.level, fun x hx hj => ?_, fun x hx hj => ?_, h.others, ?_⟩
  · rw [List.countP_eq_length_filter]
    show l.jsonHandlers.length = _
    rw [h.json, jsonOf]
    cases hs : settingsOf past with
    | nil => rfl
    | cons s rest => rw [List.getLast?_cons]; rfl
  · obtain ⟨s, -, rfl⟩ := stands hx hj
    exact h.level.symm
  · obtain ⟨s, hs, rfl⟩ := stands hx hj
    exact ⟨s, hs, rfl⟩
  · obtain ⟨theirs, nodup⟩ := foreignOf_spec past
    have parts : (l.jsonHandlers ++ l.others).Perm l.handlers := List.filter_append_perm _ _
    rw [← (parts.map Handler.id).nodup_iff, h.json, h.others]
    cases hj : jsonOf past with
    | none => exact nodup
    | some j =>
      obtain ⟨s, -, rfl⟩ := Option.map_eq_some_iff.mp hj
      refine List.nodup_cons.mpr ⟨fun hm => ?_, nodup⟩
      obtain ⟨x, hx, same⟩ := List.mem_map.mp hm
      obtain ⟨n, level, rfl⟩ := theirs x hx
      cases same

/-- **The logger keeps in step** with the calls of configuration, over every run of a process whose
logger nobody has touched. Handlers stay at their places. There is a JSON handler as soon as a call
could have settings, and no other ever. Every call that succeeds returns it, it has the level of
the logger and of the last call that succeeded, and the indent of the last call that could have
settings. The other handlers are those that others have added, as they were and in their order. A
call whose settings name no level fails; one whose settings cannot be read changes nothing, but
that the file of variables is loaded. -/
theorem configured_in_step (p : Process) (h : p.logger = .fresh) (acts : List Act) :
    InStep (p.moments acts) (p.after acts).logger ∧
    (∀ xs ys, acts = xs ++ ys → (p.after xs).logger.Keeps (p.after acts).logger) ∧
    ∀ m ∈ p.moments acts,
      (∀ j, m.answer = .handler (.ok j) → m.after.logger.json? = some j ∧
        ∃ j', (p.after acts).logger.json? = some j' ∧ j'.id = j.id) ∧
      (∀ s, m.settings? = some s → m.answer.fault? = if (level? s.logLevel).isSome then none
        else some (.misuse (.unknownLevel s.logLevel))) ∧
      ∀ f, m.act = .configure none → (Settings.read m.before.source).1 = .error f →
        m.answer = .handler (.error f) ∧
          m.after = { m.before with source := m.before.source.loaded } := by
  have keeps (xs ys : List Act) : (p.after xs).logger.Keeps (p.after (xs ++ ys)).logger := by
    rw [Process.after_append]
    exact Process.after_induction (P := fun q => (p.after xs).logger.Keeps q.logger)
      (fun m hm => hm.trans m.keeps) (.refl _) ys
  refine ⟨(Lineup.run p h acts).inStep, ?_,
    fun m hm => ⟨fun j hj => ⟨Moment.json?_of_answer hj, ?_⟩, fun s hs => ?_, fun f ha hf => ?_⟩⟩
  · rintro xs ys rfl
    exact keeps xs ys
  · obtain ⟨xs, ys, rfl, hb⟩ := Process.mem_moments.mp hm
    have after : m.after = p.after (xs ++ [m.act]) := by
      rw [Process.after_concat, ← hb]
    rw [← List.singleton_append, ← List.append_assoc]
    refine (keeps (xs ++ [m.act]) ys).json? ?_
    rw [← after]
    exact Moment.json?_of_answer hj
  · rw [(Moment.logger_of_settings hs).1]
    exact Logger.fault_configure s _
  · exact Moment.after_of_unread ha hf

/-- A process with a file of variables that cannot be read. -/
def muddledProcess : Process :=
  ⟨⟨.filledFrom [("TINYDOM_LOG_INDENT", "two")], [], none⟩, .fresh, id⟩

/-- Calls that fail in reading and on the name of a level, handlers of others, one of them added
twice, and one call that succeeds. -/
def troubledActs : List Act :=
  [.addForeign 1 30, .configure none, .configure (some ⟨"LOUD", some 2, true⟩), .addForeign 2 10,
   .setEnvironment [("TINYDOM_LOG_LEVEL", "ınfo"), ("TINYDOM_LOG_INDENT", "3")], .configure none,
   .addForeign 1 30, .configure (some ⟨"HUSH", some 4, true⟩)]

/-- The moment behind `n` of these acts. -/
def troubledMoment (n : Nat) (a : Act) : Moment := ⟨muddledProcess.after (troubledActs.take n), a⟩

theorem configured_in_step_troubled :
    muddledProcess.logger = .fresh ∧
    (muddledProcess.after troubledActs).logger =
      ⟨[.foreign 1 30, ⟨.own 0, .json (some 4), 20⟩, .foreign 2 10], 20, 1⟩ ∧
    InStep (muddledProcess.moments troubledActs) (muddledProcess.after troubledActs).logger ∧
    (muddledProcess.after (troubledActs.take 3)).logger =
      ⟨[.foreign 1 30, ⟨.own 0, .json (some 2), 0⟩], 0, 1⟩ ∧
    (muddledProcess.after (troubledActs.take 3)).logger.Keeps
      (muddledProcess.after troubledActs).logger ∧
    (troubledMoment 1 (.configure none)).answer =
      .handler (.error (.misuse (.malformedNumber "two"))) ∧
    (troubledMoment 1 (.configure none)).after.logger = ⟨[.foreign 1 30], 0, 0⟩ ∧
    (troubledMoment 1 (.configure none)).after.source.environment =
      [("TINYDOM_LOG_INDENT", "two")] ∧
    (troubledMoment 5 (.configure none)).answer = .handler (.ok ⟨.own 0, .json (some 3), 20⟩) ∧
    (∃ j, (muddledProcess.after troubledActs).logger.json? = some j ∧ j.id = .own 0) ∧
    (troubledMoment 7 (.configure (some ⟨"HUSH", some 4, true⟩))).answer.fault? =
      some (.misuse (.unknownLevel "HUSH")) := by
  obtain ⟨inStep, keeps, each⟩ := configured_in_step muddledProcess rfl troubledActs
  have unread : troubledMoment 1 (.configure none) ∈ muddledProcess.moments troubledActs :=
    Process.mem_moments.mpr ⟨troubledActs.take 1, troubledActs.drop 2, rfl, rfl⟩
  have successful : troubledMoment 5 (.configure none) ∈ muddledProcess.moments troubledActs :=
    Process.mem_moments.mpr ⟨troubledActs.take 5, troubledActs.drop 6, rfl, rfl⟩
  have misnamed : troubledMoment 7 (.configure (some ⟨"HUSH", some 4, true⟩)) ∈
      muddledProcess.moments troubledActs :=
    Process.mem_moments.mpr ⟨troubledActs.take 7, [], rfl, rfl⟩
  have returned : (troubledMoment 5 (.configure none)).answer =
      .handler (.ok ⟨.own 0, .json (some 3), 20⟩) := by rfl
  obtain ⟨failed, loaded⟩ := (each _ unread).2.2 (.misuse (.malformedNumber "two")) rfl (by rfl)
  refine ⟨rfl, by rfl, inStep, by rfl, keeps (troubledActs.take 3) (troubledActs.drop 3) rfl,
    failed, ?_, ?_, returned, ((each _ successful).1 _ returned).2, (each _ misnamed).2.1 _ rfl⟩
  · rw [loaded]
    rfl
  · rw [loaded]
    rfl

end Log

end Hypertext
