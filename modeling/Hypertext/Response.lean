import Hypertext.Markup.Content
import Hypertext.Settings
import Hypertext.Text.Percent

/-!
# Responses

Content is written as a document or a fragment and sent with a status. The body is encoded if
compression is on and the client's header mentions the encoding. Settings are looked at only if the
caller does not say whether to compress, and only once the body is there.

* `respond` is `html_response`: it answers a request.
* `Response.payload`: the bytes that are sent. `brotli.compress` belongs to another library and is a
  parameter.

Left out: the class of the response and what its server makes of it, and of a request all but the
path and one header.
-/

namespace Hypertext

/-- What matters of a request. -/
structure Request where
  /-- The path, without a query. -/
  path : String
  /-- The encodings that the client accepts, as its header says. -/
  acceptEncoding : Option String

/-- A request for a target: a percent-encoded path, after which a query or a fragment may come. -/
def Request.ofTarget (target : String) (acceptEncoding : Option String) : Request :=
  let path := target.toList.takeWhile fun c => c ≠ '?' && c ≠ '#'
  ⟨Text.percentDecode (String.ofList path), acceptEncoding⟩

/-- What the caller decides about a response. -/
structure ResponseOptions where
  status : Int := 200
  asDocument : Bool := true
  compress : Option Bool := none

/-- An encoding of a body. -/
inductive Encoding where
  | brotli
  deriving DecidableEq, Repr

/-- A response: the body is given before it is encoded. -/
structure Response where
  status : Int
  encoding : Option Encoding
  body : String
  deriving DecidableEq, Repr

namespace Response

/-- The kind of every body. -/
def contentType : String := "text/html; charset=utf-8"

/-- No response is to be kept. -/
def cacheControl : String := "must-revalidate, no-cache, no-store, private"

/-- The header value of an encoding. -/
def encodingName : Encoding → String
  | .brotli => "br"

/-- The number of bytes of the body, before it is encoded. -/
def length (r : Response) : Nat := r.body.utf8ByteSize

/-- The bytes that are sent, where `brotli` stands for `brotli.compress`. -/
def payload (brotli : ByteArray → ByteArray) (r : Response) : ByteArray :=
  match r.encoding with
  | none => r.body.toUTF8
  | some .brotli => brotli r.body.toUTF8

/-- The encoding for a client, given whether to compress at all. -/
def negotiate (compress : Bool) (acceptEncoding : Option String) : Option Encoding :=
  if compress && Text.contains (acceptEncoding.getD "") (encodingName .brotli) then some .brotli
  else none

/-- Whether to compress: as the caller says, or as the settings say, which are then read. -/
def decideCompress (option : Option Bool) (src : Settings.Source) :
    Except Fault Bool × Settings.Source :=
  match option with
  | some b => (.ok b, src)
  | none =>
    match Settings.read src with
    | (.ok s, src') => (.ok s.compress, src')
    | (.error f, src') => (.error f, src')

/-- The body of a response. -/
def write (asDocument : Bool) (content : List Value) : Traced String :=
  if asDocument then Markup.writeDocument content else Markup.writeFragment content

/-- A body sent to a client. -/
def send (brotli : ByteArray → ByteArray) (request : Request) (status : Int) (compress : Bool)
    (body : String) : Traced Response := do
  let r : Response := ⟨status, negotiate compress request.acceptEncoding, body⟩
  Traced.emit (.prepared request.path status (r.payload brotli).size)
  return r

end Response

/-- Answer a request with content (`html_response`). -/
def respond (brotli : ByteArray → ByteArray) (request : Request) (content : List Value)
    (options : ResponseOptions) (src : Settings.Source) : Traced Response × Settings.Source :=
  let written := Response.write options.asDocument content
  match written.outcome with
  | .error f => (⟨written.events, .error f⟩, src)
  | .ok body =>
    let (decision, src') := Response.decideCompress options.compress src
    let sent : Traced Response := do
      let compress ← ⟨written.events, decision⟩
      Response.send brotli request options.status compress body
    (sent, src')

end Hypertext
