import TraceGate.Proofs.Daemon.Permission
import TraceGate.Proofs.Filter.Steering
import TraceGate.Proofs.Text.Utf8

namespace TraceGate

open TraceGate.Filter Text

namespace Target

variable {name : String} {bytes rest rest' : Bytes} {t t' : Target}

structure NameFits (name : String) : Prop where
  short : (Utf8.encode name.toList).length ≤ 4
  filled : 0 ∉ Utf8.encode name.toList

structure Fits (t : Target) : Prop where
  node : NameFits t.node
  app : NameFits t.app
  context : NameFits t.context

def Padded (bytes : Bytes) : Prop :=
  ∃ (text : Bytes) (zeros : Nat), bytes = text ++ List.replicate zeros 0 ∧ 0 ∉ text ∧ (Utf8.decode? text).isSome

theorem length_encodeName (name : String) : (encodeName name).length = 4 := by
  rw [encodeName, List.length_append, List.length_replicate, List.length_take]
  omega

theorem NameFits.encodeName (fits : NameFits name) : encodeName name =
    Utf8.encode name.toList ++ List.replicate (4 - (Utf8.encode name.toList).length) 0 := by
  rw [Target.encodeName, List.take_of_length_le fits.short]

theorem decodeName_padded {cs : List Char} (filled : 0 ∉ Utf8.encode cs) (zeros : Nat) :
    decodeName (Utf8.encode cs ++ List.replicate zeros 0) = String.ofList cs := by
  have text : (Utf8.encode cs ++ List.replicate zeros 0).takeWhile (· != 0) = Utf8.encode cs := by
    have all : ∀ b ∈ Utf8.encode cs, (b != 0) = true := fun b mem => by
      rw [bne_iff_ne]
      rintro rfl
      exact filled mem
    rw [List.takeWhile_append_of_pos all]
    simp
  rw [decodeName, text, Utf8.decodeLossy_encode]

theorem NameFits.decodeName (fits : NameFits name) : decodeName (Target.encodeName name) = name := by
  rw [fits.encodeName, decodeName_padded fits.filled, String.ofList_toList]

theorem Padded.decodeName (padded : Padded bytes) (four : bytes.length = 4) :
    NameFits (decodeName bytes) ∧ encodeName (Target.decodeName bytes) = bytes := by
  obtain ⟨text, zeros, rfl, filled, well⟩ := padded
  obtain ⟨cs, read⟩ := Option.isSome_iff_exists.1 well
  obtain rfl := Utf8.decode?_eq_some_iff.1 read
  rw [List.length_append, List.length_replicate] at four
  rw [decodeName_padded filled]
  have fits : NameFits (String.ofList cs) := by
    constructor <;> rw [String.toList_ofList]
    · omega
    · exact filled
  refine ⟨fits, ?_⟩
  rw [fits.encodeName, String.toList_ofList]
  congr 2
  omega

theorem length_encode (t : Target) : t.encode.length = Frame.targetLength := by
  simp only [encode, List.length_append, length_encodeName]
  rfl

theorem Fits.decode (fits : t.Fits) (rest : Bytes) : Target.decode (t.encode ++ rest) = .ok t := by
  have enough : ¬(t.encode ++ rest).length < Frame.targetLength := by
    rw [List.length_append, length_encode]
    omega
  have parts : t.encode ++ rest = encodeName t.node ++ (encodeName t.app ++ (encodeName t.context ++ rest)) := by
    rw [encode, List.append_assoc, List.append_assoc]
  have node : (t.encode ++ rest).take 4 = encodeName t.node := by
    rw [parts, List.take_left' (length_encodeName _)]
  have app : ((t.encode ++ rest).drop 4).take 4 = encodeName t.app := by
    rw [parts, List.drop_left' (length_encodeName _), List.take_left' (length_encodeName _)]
  have context : ((t.encode ++ rest).drop (4 + 4)).take 4 = encodeName t.context := by
    rw [parts, ← List.drop_drop, List.drop_left' (length_encodeName _), List.drop_left' (length_encodeName _),
      List.take_left' (length_encodeName _)]
  rw [Target.decode, if_neg enough, node, app, context, fits.node.decodeName, fits.app.decodeName, fits.context.decodeName]

theorem decode_padded (whole : Frame.targetLength ≤ bytes.length) (node : Padded (bytes.take 4))
    (app : Padded ((bytes.drop 4).take 4)) (context : Padded ((bytes.drop 8).take 4)) :
    ∃ t, Target.decode bytes = .ok t ∧ t.Fits ∧ t.encode = bytes.take Frame.targetLength := by
  have long : 12 ≤ bytes.length := whole
  obtain ⟨node, nodeBytes⟩ := node.decodeName (by rw [List.length_take]; omega)
  obtain ⟨app, appBytes⟩ := app.decodeName (by rw [List.length_take, List.length_drop]; omega)
  obtain ⟨context, contextBytes⟩ := context.decodeName (by rw [List.length_take, List.length_drop]; omega)
  refine ⟨_, by rw [Target.decode, if_neg (Nat.not_lt.2 whole)], ⟨node, app, context⟩, ?_⟩
  rw [encode, nodeBytes, appBytes, contextBytes, ← List.take_add, ← List.take_add]
  rfl

theorem Fits.injective (fits : t.Fits) (fits' : t'.Fits) (same : t.encode ++ rest = t'.encode ++ rest') : t = t' := by
  have read := fits.decode rest
  rw [same, fits'.decode rest'] at read
  exact (Except.ok.inj read).symm

end Target

namespace Site

variable {s : Site} {t : Target} {id : UInt32}

theorem serve_target (arises : s.state.filter.Arises) (fits : t.Fits) (rest : Bytes)
    (above : Service.injectionBase ≤ id.toNat) : ∃ permitted,
      s.state.filter.injectionAllowed t.app t.context t.node id.toNat = .ok permitted ∧
        (s.serve ⟨id, t.encode ++ rest⟩).1 = { service := id, status := if permitted then .ok else .permDenied } := by
  obtain ⟨permitted, decision, -⟩ := arises.checked.1.injectionAllowed t.app t.context t.node id.toNat
  refine ⟨permitted, decision, ?_⟩
  have status : injectionStatus s.state.filter ⟨id, t.encode ++ rest⟩ = if permitted then .ok else .permDenied := by
    unfold injectionStatus
    rw [fits.decode rest]
    dsimp only
    rw [decision]
    cases permitted <;> rfl
  rw [serve_eq]
  unfold respond
  rw [if_pos (isInjection_iff.2 above), status]

/-- Targets come through, whatever is behind them, and so do the bytes that hold a target's names. A request that names a
target gets the decision about this target, and no other target is written like it. -/
theorem targets_told_apart :
    (∀ (t : Target) (rest : Bytes), t.Fits → Target.decode (t.encode ++ rest) = .ok t) ∧
      (∀ payload : Bytes, Frame.targetLength ≤ payload.length → Target.Padded (payload.take 4) →
        Target.Padded ((payload.drop 4).take 4) → Target.Padded ((payload.drop 8).take 4) →
          ∃ t, Target.decode payload = .ok t ∧ t.Fits ∧ t.encode = payload.take Frame.targetLength) ∧
      (∀ (s : Site) (t : Target) (rest : Bytes) (id : UInt32), s.state.filter.Arises → t.Fits →
        Service.injectionBase ≤ id.toNat → ∃ permitted,
          s.state.filter.injectionAllowed t.app t.context t.node id.toNat = .ok permitted ∧
            (s.serve ⟨id, t.encode ++ rest⟩).1 = { service := id, status := if permitted then .ok else .permDenied }) ∧
      ∀ (t t' : Target) (rest rest' : Bytes), t.Fits → t'.Fits → t.encode ++ rest = t'.encode ++ rest' → t = t' :=
  ⟨fun _ rest fits => fits.decode rest, fun _ whole node app context => Target.decode_padded whole node app context,
    fun _ _ rest _ arises fits above => serve_target arises fits rest above, fun _ _ _ _ fits fits' => fits.injective fits'⟩

end Site

namespace Addressing

def diagnosis : Injection := { name := "Diagnosis", app := "APP", context := "CTX", node := "ECÜ", services := [4096] }

def narrow : Segment := { Segment.restrictive "narrow" with injections := .names ["Diagnosis"] }

def filter : MessageFilter :=
  (MessageFilter.ofChain "addressing" ⟨[narrow]⟩ ⟨[diagnosis]⟩ 10 none).toOption.get (by decide +kernel)

def site : Site := ⟨{ settings := {}, filter }, {}⟩

def target : Target := { node := "ECÜ", app := "APP", context := "CTX" }

def turned : Target := { target with app := "CTX", context := "APP" }

theorem turned_refused :
    Target.decode (target.encode ++ [1, 0, 0, 0]) = .ok target ∧
      (∃ t, Target.decode (target.encode ++ [7]) = .ok t ∧ t.Fits ∧ t.encode = (target.encode ++ [7]).take Frame.targetLength) ∧
      (site.serve ⟨4096, target.encode ++ [1, 0, 0, 0]⟩).1 = { service := 4096, status := .ok } ∧
      (site.serve ⟨4096, turned.encode ++ []⟩).1 = { service := 4096, status := .permDenied } ∧
      target.encode ++ [7] ≠ turned.encode ++ [7] := by
  have built : MessageFilter.ofChain "addressing" ⟨[narrow]⟩ ⟨[diagnosis]⟩ 10 none = .ok filter :=
    Reactor.toOption_eq_some.1 (Option.some_get _).symm
  have fits : target.Fits := ⟨⟨by decide, by decide⟩, ⟨by decide, by decide⟩, ⟨by decide, by decide⟩⟩
  have fits' : turned.Fits := ⟨fits.node, fits.context, fits.app⟩
  have node : Target.Padded [69, 67, 195, 156] := ⟨[69, 67, 195, 156], 0, rfl, by decide, by decide +kernel⟩
  have app : Target.Padded [65, 80, 80, 0] := ⟨[65, 80, 80], 1, rfl, by decide, by decide +kernel⟩
  have context : Target.Padded [67, 84, 88, 0] := ⟨[67, 84, 88], 1, rfl, by decide, by decide +kernel⟩
  obtain ⟨decodes, pads, decides, apart⟩ := Site.targets_told_apart
  obtain ⟨permitted, decision, answer⟩ := decides site target [1, 0, 0, 0] 4096 (.built built) fits (by decide)
  obtain ⟨permitted', decision', answer'⟩ := decides site turned [] 4096 (.built built) fits' (by decide)
  have allowed : site.state.filter.injectionAllowed "APP" "CTX" "ECÜ" 4096 = .ok true := by decide +kernel
  have refused : site.state.filter.injectionAllowed "CTX" "APP" "ECÜ" 4096 = .ok false := by decide +kernel
  obtain rfl : permitted = true := Except.ok.inj (decision.symm.trans allowed)
  obtain rfl : permitted' = false := Except.ok.inj (decision'.symm.trans refused)
  refine ⟨decodes target _ fits, pads _ (by decide) node app context, answer, answer', fun same => ?_⟩
  exact absurd (apart target turned _ _ fits fits' same) (by decide)

end Addressing

end TraceGate
