import Mathlib.Data.List.Nodup
import Mathlib.Data.List.TakeWhile
import Hypertext.Log.Logger
import Hypertext.Proofs.Markup.Offence

/-!
# The handlers of a logger

A call of `configure_logging` changes the first JSON handler, or one that it makes and puts behind
the others. What it does is told for the JSON handlers and the other handlers apart, which are each
a part of all: `jsonHandlers` and `others`.

* `handlers_eq`: the handlers around the first JSON handler.
* `jsonHandlers_withJson`, `others_withJson`: another handler in the place of the first JSON
  handler. `jsonHandlers_add`, `others_add`: a handler that somebody adds.
* `configure_known`, `configure_unknown`: all that a call of configuration does.
* `lines_configure_debug`: what is written of a trace at the level for debugging.
* `Keeps`: every handler is still there, at its place. `keeps_configure`, `keeps_add`.
-/

namespace Hypertext.Log

namespace Logger

variable {l l' l'' : Logger} {h j : Handler} {s : Settings}

/-! ## JSON handlers and others -/

/-- The handlers that write JSON lines. -/
def jsonHandlers (l : Logger) : List Handler := l.handlers.filter Handler.isJson

/-- The handlers that write no JSON lines. -/
def others (l : Logger) : List Handler := l.handlers.filter fun h => !h.isJson

theorem json?_eq_head? (l : Logger) : l.json? = l.jsonHandlers.head? := List.head?_filter.symm

theorem isJson_of_json? (hj : l.json? = some j) : j.isJson = true := List.find?_some hj

theorem isJson_of_mem_front (hm : h ∈ l.front) : h.isJson = false := by
  simpa using List.mem_takeWhile_imp hm

theorem json?_toList_append_behind (l : Logger) :
    l.json?.toList ++ l.behind = l.handlers.dropWhile fun h => !h.isJson := by
  rw [json?, List.find?_eq_head?_dropWhile_not, behind]
  cases l.handlers.dropWhile fun h => !h.isJson <;> rfl

/-- **The handlers around the first JSON handler.** -/
theorem handlers_eq (l : Logger) : l.handlers = l.front ++ (l.json?.toList ++ l.behind) := by
  rw [json?_toList_append_behind, front, List.takeWhile_append_dropWhile]

theorem behind_eq_nil (hj : l.json? = none) : l.behind = [] := by
  rw [json?, List.find?_eq_head?_dropWhile_not, List.head?_eq_none_iff] at hj
  rw [behind, hj, List.tail_nil]

theorem filter_json_front (l : Logger) : l.front.filter Handler.isJson = [] :=
  List.filter_eq_nil_iff.mpr fun h hm => by rw [isJson_of_mem_front hm]; nofun

theorem filter_others_front (l : Logger) : (l.front.filter fun h => !h.isJson) = l.front :=
  List.filter_eq_self.mpr fun h hm => by rw [isJson_of_mem_front hm]; rfl

theorem jsonHandlers_eq (l : Logger) :
    l.jsonHandlers = l.json?.toList ++ l.behind.filter Handler.isJson := by
  rw [jsonHandlers, handlers_eq, List.filter_append, filter_json_front, List.nil_append,
    List.filter_append]
  cases hj : l.json? with
  | none => rfl
  | some j => simp [isJson_of_json? hj]

theorem others_eq (l : Logger) : l.others = l.front ++ l.behind.filter fun h => !h.isJson := by
  rw [others, handlers_eq, List.filter_append, filter_others_front, List.filter_append]
  cases hj : l.json? with
  | none => rfl
  | some j => simp [isJson_of_json? hj]

/-- Another handler in the place of the first JSON handler is the first of them. -/
theorem jsonHandlers_withJson (l : Logger) (hh : h.isJson = true) :
    (l.withJson h).jsonHandlers = h :: l.jsonHandlers.tail := by
  have rest : l.jsonHandlers.tail = l.behind.filter Handler.isJson := by
    rw [jsonHandlers_eq]
    cases hj : l.json? with
    | none => rw [behind_eq_nil hj]; rfl
    | some j => rfl
  rw [jsonHandlers, withJson, List.filter_append, filter_json_front, List.nil_append,
    List.filter_cons_of_pos hh, rest]

theorem others_withJson (l : Logger) (hh : h.isJson = true) : (l.withJson h).others = l.others := by
  rw [others_eq l, others, withJson, List.filter_append, filter_others_front,
    List.filter_cons_of_neg (by simp [hh])]

/-- What somebody adds is no JSON handler. -/
theorem jsonHandlers_add (l : Logger) (hh : h.isJson = false) :
    (l.add h).jsonHandlers = l.jsonHandlers := by
  rw [jsonHandlers, add, Handler.addTo]
  split
  · rfl
  · rw [List.filter_append, List.filter_cons_of_neg (by simp [hh]), List.filter_nil,
      List.append_nil]
    rfl

/-- What somebody adds is added to the other handlers, if the JSON handlers are told from it. -/
theorem others_add (hh : h.isJson = false) (hi : ∀ j ∈ l.jsonHandlers, j.id ≠ h.id) :
    (l.add h).others = h.addTo l.others := by
  have among : (l.others.any fun x => x.id = h.id) = l.handlers.any fun x => x.id = h.id := by
    rw [others, List.any_filter, Bool.eq_iff_iff, List.any_eq_true, List.any_eq_true]
    refine exists_congr fun x => and_congr_right fun hx => ?_
    cases hj : x.isJson with
    | false => rfl
    | true => simp [hi x (List.mem_filter.mpr ⟨hx, hj⟩)]
  rw [Handler.addTo, among, others, add, Handler.addTo]
  split
  · rfl
  · rw [List.filter_append, List.filter_cons_of_pos (by simp [hh]), List.filter_nil]
    rfl

/-! ## A call of configuration -/

/-- **A call with the name of a level** gives the JSON handler its indent, and it and the logger the
level. It returns the handler. -/
theorem configure_known {n : Int} (l : Logger) (hn : level? s.logLevel = some n) :
    l.configure s = (.ok ⟨l.own.id, .json s.logIndent, n⟩,
      { l.withJson ⟨l.own.id, .json s.logIndent, n⟩ with level := n }) := by
  simp only [configure, hn]

/-- **A call with another name** fails for it, when the JSON handler has its indent. -/
theorem configure_unknown (l : Logger) (hn : level? s.logLevel = none) :
    l.configure s = (.error (.misuse (.unknownLevel s.logLevel)),
      l.withJson ⟨l.own.id, .json s.logIndent, l.own.level⟩) := by
  simp only [configure, hn]

/-- A call fails for a name that is no level, and for nothing else. -/
theorem fault_configure (s : Settings) (l : Logger) : fault? (l.configure s).1 =
    if (level? s.logLevel).isSome then none else some (.misuse (.unknownLevel s.logLevel)) := by
  cases hn : level? s.logLevel with
  | none => rw [configure_unknown l hn]; rfl
  | some n => rw [configure_known l hn]; rfl

/-- **A call that succeeds returns the JSON handler.** -/
theorem json?_configure (hs : (l.configure s).1 = .ok j) : (l.configure s).2.json? = some j := by
  cases hn : level? s.logLevel with
  | none =>
    rw [configure_unknown l hn] at hs
    cases hs
  | some n =>
    rw [configure_known l hn] at hs ⊢
    cases hs
    have first := jsonHandlers_withJson l (h := ⟨l.own.id, .json s.logIndent, n⟩) rfl
    rw [json?_eq_head?]
    exact congrArg List.head? first

/-! ## Lines at the level for debugging -/

variable (line : Formatter)

/-- Handlers that write no JSON lines write nothing. -/
theorem join_lines_jsonHandlers (hs : List Handler) (e : Event) :
    String.join (hs.map fun h => h.lines line e) =
      String.join ((hs.filter Handler.isJson).map fun h => h.lines line e) := by
  induction hs with
  | nil => rfl
  | cons h hs ih =>
    rw [List.map_cons, String.join_cons, ih]
    cases hf : h.format with
    | plain =>
      rw [List.filter_cons_of_neg (by simp [Handler.isJson, hf]), Handler.lines, hf,
        String.empty_append]
    | json indent =>
      rw [List.filter_cons_of_pos (by simp [Handler.isJson, hf]), List.map_cons, String.join_cons]

/-- **At the level for debugging** the JSON handler writes a line for every event. -/
theorem lines_configure_debug (hs : s.logLevel = "DEBUG")
    (hl : l.handlers.countP Handler.isJson ≤ 1) (events : List Event) :
    (l.configure s).2.lines line events =
      String.join (events.map fun e => line s.logIndent (eventFields e) ++ "\n") := by
  have level : level? s.logLevel = some debug := by
    rw [hs]
    decide +kernel
  have only : (l.withJson ⟨l.own.id, .json s.logIndent, debug⟩).jsonHandlers =
      [⟨l.own.id, .json s.logIndent, debug⟩] := by
    rw [jsonHandlers_withJson l rfl, List.cons.injEq]
    refine ⟨rfl, List.eq_nil_of_length_eq_zero ?_⟩
    rw [List.countP_eq_length_filter] at hl
    rw [List.length_tail]
    exact Nat.sub_eq_zero_of_le hl
  rw [configure_known l level]
  show String.join (events.map fun e => String.join
    ((l.withJson ⟨l.own.id, .json s.logIndent, debug⟩).handlers.map fun h => h.lines line e)) = _
  congr 2
  funext e
  rw [join_lines_jsonHandlers]
  show String.join ((jsonHandlers _).map fun h => h.lines line e) = _
  rw [only, List.map_singleton, String.join_cons, String.join_nil, String.append_empty]
  rfl

/-! ## Handlers stay -/

/-- Every handler is still there and at its place: what is no JSON handler as it was, and a JSON
handler as a JSON handler. -/
structure Keeps (l l' : Logger) : Prop where
  place : ∀ {i : Nat} {h : Handler}, l.handlers[i]? = some h → ∃ h' : Handler,
    l'.handlers[i]? = some h' ∧ h'.id = h.id ∧ h'.isJson = h.isJson ∧ (h.isJson = false → h' = h)

namespace Keeps

theorem refl (l : Logger) : l.Keeps l := ⟨fun {_ h} hi => ⟨h, hi, rfl, rfl, fun _ => rfl⟩⟩

theorem trans (hl : l.Keeps l') (hl' : l'.Keeps l'') : l.Keeps l'' := by
  refine ⟨fun {i x} hx => ?_⟩
  obtain ⟨y, hy, sameId, same, plain⟩ := hl.place hx
  obtain ⟨z, hz, sameId', same', plain'⟩ := hl'.place hy
  refine ⟨z, hz, sameId'.trans sameId, same'.trans same, fun hf => ?_⟩
  rw [plain' (same.trans hf), plain hf]

/-- More handlers at the end. -/
theorem of_append (more : List Handler) (hl : l'.handlers = l.handlers ++ more) : l.Keeps l' := by
  refine ⟨fun {i h} hi => ⟨h, ?_, rfl, rfl, fun _ => rfl⟩⟩
  obtain ⟨lt, -⟩ := List.getElem?_eq_some_iff.mp hi
  rw [hl, List.getElem?_append_left lt, hi]

/-- The handler that is configured, changed, at its place. -/
theorem of_own (hl : l'.handlers = l.front ++ h :: l.behind) (hh : h.isJson = true)
    (hi : h.id = l.own.id) : l.Keeps l' := by
  cases hj : l.json? with
  | none =>
    have all : l.handlers = l.front := by simpa [hj, behind_eq_nil hj] using l.handlers_eq
    refine of_append [h] ?_
    rw [hl, behind_eq_nil hj, all]
  | some j =>
    have own : l.own = j := by rw [own, hj, Option.getD_some]
    have around : l.handlers = l.front ++ j :: l.behind := by simpa [hj] using l.handlers_eq
    refine ⟨fun {i x} hx => ?_⟩
    rw [around, List.getElem?_append] at hx
    rw [hl, List.getElem?_append]
    by_cases lt : i < l.front.length
    · rw [if_pos lt] at hx ⊢
      exact ⟨x, hx, rfl, rfl, fun _ => rfl⟩
    · rw [if_neg lt] at hx ⊢
      cases hd : i - l.front.length with
      | zero =>
        rw [hd] at hx
        cases hx
        have json := isJson_of_json? hj
        exact ⟨h, rfl, hi.trans (congrArg Handler.id own), hh.trans json.symm,
          fun hf => absurd (json.symm.trans hf) nofun⟩
      | succ k =>
        rw [hd] at hx
        exact ⟨x, hx, rfl, rfl, fun _ => rfl⟩

/-- The JSON handler stays the first, and is the same one. -/
theorem json? (hl : l.Keeps l') (hj : l.json? = some j) :
    ∃ j', l'.json? = some j' ∧ j'.id = j.id := by
  obtain ⟨json, i, lt, rfl, before⟩ := List.find?_eq_some_iff_getElem.mp hj
  obtain ⟨j', hj', sameId, same, -⟩ := hl.place (List.getElem?_eq_getElem lt)
  obtain ⟨lt', rfl⟩ := List.getElem?_eq_some_iff.mp hj'
  refine ⟨l'.handlers[i], ?_, sameId⟩
  refine List.find?_eq_some_iff_getElem.mpr ⟨same.trans json, i, lt', rfl, fun k hk => ?_⟩
  obtain ⟨x, hx, -, plain, -⟩ := hl.place (List.getElem?_eq_getElem (Nat.lt_trans hk lt))
  obtain ⟨_, rfl⟩ := List.getElem?_eq_some_iff.mp hx
  rw [plain]
  exact before k hk

end Keeps

/-- **A call of configuration keeps the handlers.** -/
theorem keeps_configure (s : Settings) (l : Logger) : l.Keeps (l.configure s).2 := by
  cases hn : level? s.logLevel with
  | none =>
    rw [configure_unknown l hn]
    exact .of_own rfl rfl rfl
  | some n =>
    rw [configure_known l hn]
    exact .of_own rfl rfl rfl

theorem keeps_add (h : Handler) (l : Logger) : l.Keeps (l.add h) := by
  by_cases there : l.handlers.any fun x => x.id = h.id
  · refine .of_append [] ?_
    rw [add, Handler.addTo, if_pos there, List.append_nil]
  · refine .of_append [h] ?_
    rw [add, Handler.addTo, if_neg there]

end Logger

end Hypertext.Log
