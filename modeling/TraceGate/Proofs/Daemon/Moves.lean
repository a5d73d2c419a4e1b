import TraceGate.Proofs.Daemon.Deeds
import TraceGate.Proofs.Host.Addresses

namespace TraceGate

open Relation

namespace Handlers

/-- What a deed of a handler comes to, as far as connections and open endpoints go. -/
inductive Move (kind : Kind) (id : Nat) (s : Scene State) : Scene State → Prop
  | use {receiver : Receiver} {host : Host} (same : receiver.endpoint = s.receiver.endpoint)
      (grows : Host.Grows s.reactor.host host) (houses : Host.Houses s.reactor.host host) :
      Move kind id s { s with receiver, reactor := { s.reactor with host } }
  | note (stats : Stats) (notices : Option (List Notice)) (exit : Bool) :
      Move kind id s { s with state := { s.state with stats, notices, exit } }
  | accept {host : Host} {e : Endpoint} {peer : Kind} (grows : Host.Grows s.reactor.host host)
      (houses : Host.Houses s.reactor.host host) (isOpen : host.IsOpen e) (new : s.reactor.host.next ≤ e.id)
      (other : e.kind ≠ .tcpListener) (admits : admitted? kind = some peer) :
      Move kind id s { s with reactor := (({ s.reactor with host } : Reactor).register s.state.filter.allowed peer
        (.ofEndpoint e) Flags.input).2 }
  | unregister (peer : admitted? kind = none) : Move kind id s { s with reactor := (s.reactor.unregister id).2 }
  | forward (bytes : Bytes) : Move kind id s { s with reactor := (s.reactor.sendTo consumers bytes).2 }
  | level (n : Nat) (leads : kind ∈ levelers) :
      Move kind id s { s with state := (Site.applyLevel n ⟨s.state, s.reactor⟩).2.state,
                              reactor := (Site.applyLevel n ⟨s.state, s.reactor⟩).2.reactor }

abbrev Moves (kind : Kind) (id : Nat) : Scene State → Scene State → Prop := ReflTransGen (Move kind id)

variable {kind peer : Kind} {id : Nat} {α β : Type}

theorem admitted?_standing (admits : admitted? kind = some peer) : peer ≠ .clientConnect ∧ peer ≠ .controlConnect := by
  cases kind <;> cases admits <;> decide

theorem ne_clientConnect (peer : admitted? kind = none) : kind ≠ .clientConnect := by
  rintro rfl
  cases peer

abbrev Does (kind : Kind) (id : Nat) (t : Turn State α) : Prop := t.Respects (Moves kind id)

theorem fill_endpoint (receiver : Receiver) (host : Host) : (receiver.fill host).2.1.endpoint = receiver.endpoint := by
  unfold Receiver.fill
  split
  · rfl
  · split <;> rfl

theorem Deed.move {s t : Scene State} (deed : Deed kind id s t) : Move kind id s t := by
  cases deed with
  | fill =>
      have still := Host.Still.fill s.receiver s.reactor.host
      exact .use (fill_endpoint _ _) still.grows still.houses
  | consume n => exact .use rfl (.refl s.reactor.host) (.refl _)
  | send bytes =>
      have still := Host.Still.sendFrom s.receiver bytes s.reactor.host
      exact .use (@rfl _ s.receiver.endpoint) still.grows still.houses
  | tick =>
      have still := Host.Still.readTimer s.reactor.host
      exact .use (@rfl _ s.receiver.endpoint) still.grows still.houses
  | @refuse listener error failed =>
      exact .use (@rfl _ s.receiver.endpoint) (Host.opens_accept _ listener).grows (Host.houses_accept _ listener)
  | @accept listener e peer ok admits =>
      have opens := Host.opens_accept s.reactor.host listener
      obtain ⟨isOpen, new, other⟩ := opens.fresh e ok
      exact .accept opens.grows (Host.houses_accept _ listener) isOpen new other admits
  | unregister peer => exact .unregister peer
  | forward application bytes => exact .forward bytes
  | level n leads => exact .level n leads
  | note stats notices exit => exact .note stats notices exit

theorem Deeds.moves {s t : Scene State} (deeds : Deeds kind id s t) : Moves kind id s t := by
  induction deeds with
  | refl => exact .refl
  | tail _ deed ih => exact ih.tail deed.move

theorem does_ofKind (kind : Kind) (id : Nat) : Does kind id (ofKind kind id) :=
  fun s => Deeds.moves (performs_ofKind kind id s)

end Handlers

end TraceGate
