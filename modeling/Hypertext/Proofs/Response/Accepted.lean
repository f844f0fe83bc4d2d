import Hypertext.Text.Decimal
import Hypertext.Proofs.Response.Decided
import Hypertext.Proofs.Text.Parts

/-!
# Encodings that clients accept

A client lists the codings that it accepts, with weights perhaps, as in `gzip, br;q=0.5`. The star
stands for any coding, and what has the weight zero is refused. `html_response` does not read the
list: a response is encoded if the letters of the coding stand anywhere in the header.

* `preferences`: the header read as a list.
* `Misleading`: a piece of the header in which the letters stand, though it does not ask for the
  coding.
* `occurs_iff`: where the letters stand, a piece asks for the coding or misleads.
* **`encoded_for_clients`**: a response is encoded for every client that asks for it, and for no
  other unless its header misleads. `encoded_for_refusal`: such a client, which refuses the coding.
-/

namespace Hypertext.Response

/-! ## The header -/

/-- What a client says of a coding. -/
structure Preference where
  coding : List Char
  weight : Text.Decimal

/-- The spaces that may surround a coding and a weight. -/
def isSpace (c : Char) : Bool := c = ' ' || c = '\t'

/-- A weight: the letter `q`, an equals sign and a decimal number. -/
def weight? : List Char → Option Text.Decimal
  | q :: '=' :: number =>
    if q.toLower = 'q' then
      (Text.Decimal.unsigned? number).map fun (digits, places) => ⟨digits, -places⟩
    else none
  | _ => none

/-- What a piece of the header says. A coding without a weight has the weight one. -/
def preference? (piece : List Char) : Option Preference :=
  match piece.splitOn ';' with
  | [coding] => some ⟨Text.trim isSpace coding, ⟨1, 0⟩⟩
  | [coding, weight] =>
    (weight? (Text.trim isSpace weight)).map (⟨Text.trim isSpace coding, ·⟩)
  | _ => none

/-- The pieces of a header, which commas separate. -/
def pieces (header : String) : List (List Char) := header.toList.splitOn ','

/-- What a header says. A piece that cannot be read says nothing. -/
def preferences (header : String) : List Preference := (pieces header).filterMap preference?

/-- The letters of the coding. -/
def brotli : List Char := (encodingName .brotli).toList

namespace Preference

/-- The coding is not refused. -/
def Positive (p : Preference) : Prop := p.weight.mantissa ≠ 0

instance (p : Preference) : Decidable p.Positive := inferInstanceAs (Decidable (_ ≠ _))

/-- The coding is the one that responses have, in whatever case. -/
def Names (p : Preference) : Prop := p.coding.map Char.toLower = brotli

instance (p : Preference) : Decidable p.Names := inferInstanceAs (Decidable (_ = _))

end Preference

/-- The client accepts an encoded response. -/
def Accepts (header : String) : Prop :=
  ∃ p ∈ preferences header, (p.Names ∨ p.coding = ['*']) ∧ p.Positive

/-- The client asks for an encoded response, in lower case. -/
def Asks (header : String) : Prop :=
  ∃ p ∈ preferences header, p.coding = brotli ∧ p.Positive

instance (header : String) : Decidable (Accepts header) := List.decidableBEx ..

instance (header : String) : Decidable (Asks header) := List.decidableBEx ..

/-- A piece in which the letters of the coding stand, though it does not ask for it. -/
inductive Misleading (piece : List Char) : Prop
  /-- It refuses the coding. -/
  | refusal (p : Preference) : preference? piece = some p → p.coding = brotli → ¬ p.Positive →
    Misleading piece
  /-- It is about another coding, within whose name the letters stand. -/
  | other (p : Preference) : preference? piece = some p → p.coding ≠ brotli →
    brotli <:+: p.coding → Misleading piece
  /-- It cannot be read. -/
  | unread : preference? piece = none → brotli <:+: piece → Misleading piece

/-- There is a misleading piece in the header. -/
def Misleads (header : String) : Prop := ∃ piece ∈ pieces header, Misleading piece

theorem accepts_of_asks {header : String} (h : Asks header) : Accepts header := by
  obtain ⟨p, hm, named, positive⟩ := h
  refine ⟨p, hm, .inl ?_, positive⟩
  rw [Preference.Names, named]
  rfl

/-! ## Where the letters stand -/

/-- A decimal number consists of digits and a point. -/
theorem mem_unsigned? {cs : List Char} {x : Nat × Nat} (h : Text.Decimal.unsigned? cs = some x) :
    ∀ c ∈ cs, c.isDigit = true ∨ c = '.' := by
  have whole : ∀ c ∈ cs.takeWhile Char.isDigit, c.isDigit = true := fun _ => List.mem_takeWhile_imp
  have rest : ∀ c ∈ cs.dropWhile Char.isDigit, c.isDigit = true ∨ c = '.' := by
    unfold Text.Decimal.unsigned? at h
    split at h
    · next e =>
      rw [e]
      exact List.forall_mem_nil _
    · next places e =>
      rw [e]
      obtain ⟨digits, -⟩ := Option.ite_none_right_eq_some.mp h
      rw [Bool.and_eq_true, List.all_eq_true] at digits
      exact List.forall_mem_cons.mpr ⟨.inr rfl, fun c hc => .inl (digits.1 c hc)⟩
    · cases h
  intro c hc
  rw [← List.takeWhile_append_dropWhile (p := Char.isDigit) (l := cs), List.mem_append] at hc
  exact hc.elim (fun hw => .inl (whole c hw)) (rest c)

/-- The letters of the coding do not stand in a weight. -/
theorem not_infix_of_weight? {s : List Char} {w : Text.Decimal} (h : weight? s = some w) :
    ¬ brotli <:+: s := by
  intro hb
  have hm : 'b' ∈ s := hb.subset (by decide)
  unfold weight? at h
  split at h
  · next q number =>
    obtain ⟨hq, h⟩ := Option.ite_none_right_eq_some.mp h
    obtain ⟨x, hx, -⟩ := Option.map_eq_some_iff.mp h
    rcases List.mem_cons.mp hm with rfl | hm
    · exact absurd hq (by decide)
    rcases List.mem_cons.mp hm with e | hm
    · exact absurd e (by decide)
    · exact absurd (mem_unsigned? hx 'b' hm) (by decide)
  · cases h

/-- In a piece that can be read, the letters stand within the name of the coding only. -/
theorem infix_coding_iff {piece : List Char} {p : Preference} (h : preference? piece = some p) :
    brotli <:+: piece ↔ brotli <:+: p.coding := by
  have inked : ∀ c ∈ brotli, isSpace c = false := by
    show ∀ c ∈ ['b', 'r'], isSpace c = false
    exact List.forall_mem_cons.mpr ⟨rfl, List.forall_mem_singleton.mpr rfl⟩
  have apart : ';' ∉ brotli := by decide
  rw [Text.infix_splitOn apart]
  unfold preference? at h
  split at h
  · next coding e =>
    cases h
    simp only [e, List.exists_mem_cons_iff, List.not_mem_nil, false_and, exists_false, or_false,
      Text.infix_trim inked]
  · next coding weight e =>
    obtain ⟨w, hw, rfl⟩ := Option.map_eq_some_iff.mp h
    have unweighted : ¬ brotli <:+: weight := by
      rw [← Text.infix_trim inked]
      exact not_infix_of_weight? hw
    simp only [e, List.exists_mem_cons_iff, List.not_mem_nil, false_and, exists_false, or_false,
      Text.infix_trim inked, unweighted]
  · cases h

theorem misleading_iff (piece : List Char) : Misleading piece ↔
    brotli <:+: piece ∧ ¬ ∃ p ∈ preference? piece, p.coding = brotli ∧ p.Positive := by
  constructor
  · rintro (⟨p, hp, named, refused⟩ | ⟨p, hp, named, within⟩ | ⟨hp, hb⟩)
    · refine ⟨(infix_coding_iff hp).mpr (named ▸ List.infix_rfl), ?_⟩
      rintro ⟨p', hp', -, positive⟩
      obtain rfl := Option.some.inj (hp.symm.trans hp')
      exact refused positive
    · refine ⟨(infix_coding_iff hp).mpr within, ?_⟩
      rintro ⟨p', hp', named', -⟩
      obtain rfl := Option.some.inj (hp.symm.trans hp')
      exact named named'
    · refine ⟨hb, ?_⟩
      rintro ⟨p', hp', -⟩
      cases hp.symm.trans hp'
  · rintro ⟨hb, unasked⟩
    cases hp : preference? piece with
    | none => exact .unread hp hb
    | some p =>
      by_cases named : p.coding = brotli
      · exact .refusal p hp named fun positive => unasked ⟨p, hp, named, positive⟩
      · exact .other p hp named ((infix_coding_iff hp).mp hb)

instance (piece : List Char) : Decidable (Misleading piece) :=
  decidable_of_iff _ (misleading_iff piece).symm

instance (header : String) : Decidable (Misleads header) := List.decidableBEx ..

theorem infix_piece_iff (piece : List Char) : brotli <:+: piece ↔
    (∃ p ∈ preference? piece, p.coding = brotli ∧ p.Positive) ∨ Misleading piece := by
  have asked (h : ∃ p ∈ preference? piece, p.coding = brotli ∧ p.Positive) : brotli <:+: piece := by
    obtain ⟨p, hp, named, -⟩ := h
    exact (infix_coding_iff hp).mpr (named ▸ List.infix_rfl)
  rw [misleading_iff]
  exact ⟨fun hb => (Decidable.em _).imp_right fun unasked => ⟨hb, unasked⟩,
    fun h => h.elim asked And.left⟩

theorem asks_iff (header : String) : Asks header ↔ ∃ piece ∈ pieces header,
    ∃ p ∈ preference? piece, p.coding = brotli ∧ p.Positive := by
  simp only [Asks, preferences, List.mem_filterMap]
  constructor
  · rintro ⟨p, ⟨piece, hm, hp⟩, wanted⟩
    exact ⟨piece, hm, p, hp, wanted⟩
  · rintro ⟨piece, hm, p, hp, wanted⟩
    exact ⟨p, ⟨piece, hm, hp⟩, wanted⟩

/-- **Where the letters of the coding stand**, the client asks for it or its header misleads. -/
theorem occurs_iff (header : String) :
    Text.contains header (encodingName .brotli) = true ↔ Asks header ∨ Misleads header := by
  rw [Text.contains_iff]
  calc brotli <:+: header.toList
      ↔ ∃ piece ∈ pieces header, brotli <:+: piece := Text.infix_splitOn (by decide) _
    _ ↔ ∃ piece ∈ pieces header, (∃ p ∈ preference? piece, p.coding = brotli ∧ p.Positive) ∨
          Misleading piece := by simp only [infix_piece_iff]
    _ ↔ Asks header ∨ Misleads header := by
        simp only [asks_iff, Misleads, and_or_left, exists_or]

/-! ## Responses -/

theorem negotiate_eq_some_iff {b : Bool} {acceptEncoding : Option String} :
    negotiate b acceptEncoding = some .brotli ↔
      b = true ∧ (Asks (acceptEncoding.getD "") ∨ Misleads (acceptEncoding.getD "")) := by
  rw [negotiate, Option.ite_none_right_eq_some, Bool.and_eq_true, occurs_iff]
  exact and_iff_left rfl

/-- **A response is encoded for every client that asks for it**, if compression is on. It is encoded
for no other, unless the header of the client misleads; and then it is, whatever the client
accepts. -/
theorem encoded_for_clients (brotli : ByteArray → ByteArray) (request : Request)
    (content : List Value) (options : ResponseOptions) (src : Settings.Source) :
    let header := request.acceptEncoding.getD ""
    let answer := (respond brotli request content options src).1.outcome
    let decision := (decideCompress options.compress src).1
    (∀ r, answer = .ok r → (r.encoding = some .brotli ↔
      decision = .ok true ∧ (Asks header ∨ Misleads header))) ∧
    (∀ r, answer = .ok r → r.encoding = some .brotli → ¬ Misleads header → Accepts header) ∧
    ∀ body, (write options.asDocument content).outcome = .ok body → decision = .ok true →
      Asks header → answer = .ok ⟨options.status, some .brotli, body⟩ := by
  intro header answer decision
  have law {r : Response} (h : answer = .ok r) : r.encoding = some .brotli ↔
      decision = .ok true ∧ (Asks header ∨ Misleads header) := by
    obtain ⟨body, b, -, hb, rfl⟩ := outcome_respond_iff.mp h
    have decided : decision = .ok b := hb
    rw [negotiate_eq_some_iff, decided, Except.ok.injEq]
  refine ⟨fun r => law, fun r h encoded straight => ?_, fun body hw hd asks => ?_⟩
  · obtain ⟨-, asks | misled⟩ := (law h).mp encoded
    · exact accepts_of_asks asks
    · exact absurd misled straight
  · refine outcome_respond_iff.mpr ⟨body, true, hw, hd, ?_⟩
    rw [negotiate_eq_some_iff.mpr ⟨rfl, .inl asks⟩]

/-- No variables, in the environment or in a file, and nothing read so far. -/
def bareSource : Settings.Source := ⟨Environment.filledFrom [], [], none⟩

theorem encoded_for_clients_weighted :
    (respond compressedPage ⟨"/", some "gzip, br;q=0.5"⟩ [.str "x"] {} bareSource).1.outcome =
        .ok ⟨200, some .brotli, "<!DOCTYPE html>x"⟩ ∧
      Asks "gzip, br;q=0.5" ∧ ¬ Misleads "gzip, br;q=0.5" ∧ Accepts "gzip, br;q=0.5" := by
  obtain ⟨law, straight, asked⟩ :=
    encoded_for_clients compressedPage ⟨"/", some "gzip, br;q=0.5"⟩ [.str "x"] {} bareSource
  have encoded := asked "<!DOCTYPE html>x" (by rfl) (by rfl) (by decide)
  exact ⟨encoded, ((law _ encoded).mp rfl).2.resolve_right (by decide), by decide,
    straight _ encoded rfl (by decide)⟩

/-- A client that refuses the coding gets a response that it cannot read. -/
theorem encoded_for_refusal :
    (respond compressedPage ⟨"/", some "gzip, br;q=0"⟩ [.str "x"] { compress := some true }
        bareSource).1.outcome = .ok ⟨200, some .brotli, "<!DOCTYPE html>x"⟩ ∧
      ¬ Accepts "gzip, br;q=0" :=
  ⟨by rfl, by decide⟩

end Hypertext.Response
