import Hypertext.Response

/-!
# Responses and the decision to compress

A response (`html_response`) writes its body, then decides whether to compress, then sends the body
as it is decided.

* `Response.decided`: a response for which the decision is made.
* `respond_unwritten`, `respond_written`: a response by what comes of its body.
* `outcome_respond_iff`: what a response is if there is one. `events_decided`: what is reported of
  it.
-/

namespace Hypertext

/-- A response once it is decided whether to compress. -/
def Response.decided (brotli : ByteArray → ByteArray) (request : Request) (content : List Value)
    (options : ResponseOptions) (compress : Bool) : Traced Response := do
  let body ← Response.write options.asDocument content
  Response.send brotli request options.status compress body

section Responses

variable {brotli : ByteArray → ByteArray} {request : Request} {content : List Value}
  {options : ResponseOptions} {src : Settings.Source}

theorem decided_eq (b : Bool) : Response.decided brotli request content options b =
    (Response.write options.asDocument content).andThen
      (Response.send brotli request options.status b) := rfl

variable (brotli request src) in
/-- A body that cannot be written is all there is to say. -/
theorem respond_unwritten {f : Fault}
    (h : (Response.write options.asDocument content).outcome = .error f) :
    respond brotli request content options src =
        (⟨(Response.write options.asDocument content).events, .error f⟩, src) ∧
      ∀ b, Response.decided brotli request content options b =
        ⟨(Response.write options.asDocument content).events, .error f⟩ := by
  refine ⟨by simp only [respond, h], fun b => ?_⟩
  rw [decided_eq, Traced.andThen, h]

theorem respond_written {body : String}
    (h : (Response.write options.asDocument content).outcome = .ok body) :
    respond brotli request content options src =
      match Response.decideCompress options.compress src with
      | (.ok b, src') => (Response.decided brotli request content options b, src')
      | (.error f, src') =>
        (⟨(Response.write options.asDocument content).events, .error f⟩, src') := by
  simp only [respond, h]
  obtain ⟨_ | b, src'⟩ := Response.decideCompress options.compress src
  · rfl
  · simp only [decided_eq, Traced.andThen, h]
    rfl

/-- A body that is written is sent as it is decided. -/
theorem outcome_decided {body : String}
    (h : (Response.write options.asDocument content).outcome = .ok body) (b : Bool) :
    (Response.decided brotli request content options b).outcome =
      .ok ⟨options.status, Response.negotiate b request.acceptEncoding, body⟩ := by
  rw [decided_eq, Traced.andThen, h]
  rfl

/-- What is reported of a response is the writing of its body, and then how many bytes are sent. -/
theorem events_decided {body : String}
    (h : (Response.write options.asDocument content).outcome = .ok body) (b : Bool) :
    (Response.decided brotli request content options b).events =
      (Response.write options.asDocument content).events ++ [.prepared request.path options.status
        (Response.payload brotli
          ⟨options.status, Response.negotiate b request.acceptEncoding, body⟩).size] := by
  rw [decided_eq, Traced.andThen, h]
  rfl

/-- The bytes that `brotli.compress` makes of the page `<!DOCTYPE html>x`. -/
def Response.compressedPage (_ : ByteArray) : ByteArray :=
  ⟨#[0x1b, 0x0f, 0x00, 0xf8, 0x25, 0xf0, 0x4a, 0x11, 0x62, 0x62, 0x9d, 0xa8, 0x03]⟩

example : (Response.decided Response.compressedPage ⟨"/", some "br"⟩ [.str "x"] {} true).events =
    [.wroteDocument 16, .prepared "/" 200 13] := by
  rfl

/-- **There is a response** iff its body can be written and it can be decided whether to compress,
and it consists of both. -/
theorem outcome_respond_iff {r : Response} :
    (respond brotli request content options src).1.outcome = .ok r ↔
      ∃ body b, (Response.write options.asDocument content).outcome = .ok body ∧
        (Response.decideCompress options.compress src).1 = .ok b ∧
        r = ⟨options.status, Response.negotiate b request.acceptEncoding, body⟩ := by
  cases hw : (Response.write options.asDocument content).outcome with
  | error f =>
    rw [(respond_unwritten brotli request src hw).1]
    simp only [reduceCtorEq, false_and, exists_false]
  | ok body =>
    rw [respond_written hw]
    obtain ⟨f | b, src'⟩ := Response.decideCompress options.compress src
    · simp only [reduceCtorEq, false_and, and_false, exists_false]
    · simp only [outcome_decided hw, Except.ok.injEq]
      constructor
      · rintro rfl
        exact ⟨body, b, rfl, rfl, rfl⟩
      · rintro ⟨_, _, rfl, rfl, rfl⟩
        rfl

end Responses

end Hypertext
