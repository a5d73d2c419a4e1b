import TraceGate.Proofs.Daemon.Keeping
import TraceGate.Proofs.Reactor.Tidiness

namespace TraceGate

open Connection

namespace Reactor

variable {loan : Option Loan} {r r' : Reactor} {kinds : EndpointKind → Prop} {e : Endpoint}
  {outcome : Except SystemError Endpoint × Host}

theorem Coherent.loose_opened (coherent : r.Coherent loan) (opens : Host.Opens kinds r.host outcome)
    (yields : Host.Yields r.host outcome) (ok : outcome.1 = .ok e) (x : Endpoint) :
    ({ r with host := outcome.2 } : Reactor).Loose loan x ∧ e ≠ x ↔ r.Loose loan x := by
  have new := (opens.fresh e ok).2.1
  have given : outcome.2.IsOpen x ↔ r.host.IsOpen x ∨ e = x := (yields.isOpen x).trans (by rw [ok, Except.ok.injEq])
  have known (isOpen : r.host.IsOpen x) : e ≠ x := by
    rintro rfl
    exact absurd (coherent.sound.numbers e isOpen) (by omega)
  unfold Loose
  dsimp only
  rw [given]
  tauto

theorem Coherent.tidy_opened (coherent : r.Coherent loan) (opens : Host.Opens kinds r.host outcome)
    (yields : Host.Yields r.host outcome) (ok : outcome.1 = .ok e)
    (takes : ({ r with host := outcome.2 } : Reactor).Loose loan e → Takes loan e { r with host := outcome.2 } r') :
    Tidy loan loan r r' := by
  obtain ⟨isOpen, new, -⟩ := opens.fresh e ok
  have takes := takes (coherent.loose isOpen new)
  exact ⟨yields.tree.trans takes.tree, fun x => (takes.loose x).trans (coherent.loose_opened opens yields ok x)⟩

theorem tidy_roused (wait : Wait) (r : Reactor) : Tidy loan loan r (r.roused wait) := by
  refine ⟨?_, fun e => ?_⟩
  · rw [roused_host]
    exact .refl _
  · rw [Loose, Loose, roused_host, (roused_spec wait r).1]

end Reactor

namespace Site

open Reactor

variable {loan loan' : Option Loan} {s : Site}

theorem tidy_ensureListener (coherent : s.reactor.Coherent loan) (address : Net.Address) :
    Tidy loan loan s.reactor (s.ensureListener address).2.reactor := by
  have opens := Host.opens_listenNetwork s.reactor.host address
  have yields := Host.yields_listenNetwork s.reactor.host address
  unfold Site.ensureListener Site.openListener
  rcases eq : s.reactor.host.listenNetwork address with ⟨outcome, host⟩
  rw [eq] at opens yields
  cases outcome with
  | error e =>
      have failed : Tidy loan loan s.reactor { s.reactor with host } := .of_quiet (yields.quiet rfl)
      dsimp only [Except.mapError]
      split
      · split
        · exact failed
        · exact .refl _
      · exact failed
  | ok e =>
      dsimp only [Except.mapError]
      split
      · split
        · exact coherent.tidy_opened opens yields rfl fun _ => takes_assign _ _ e
        · exact .refl _
      · have grown := coherent.grow opens.grows
        have registered : Tidy loan loan s.reactor (({ s.reactor with host } : Reactor).register s.state.filter.allowed
            .clientConnect (.ofEndpoint e) Flags.input).2 :=
          coherent.tidy_opened opens yields rfl fun loose => Coherent.takes_register grown loose _ _ _
        rw [react_eq]
        split <;> rename_i done <;> obtain ⟨-, rfl⟩ := Prod.mk.inj done <;> exact registered

theorem tidy_ensureEach (addresses : List Net.Address) (coherent : s.reactor.Coherent loan) :
    Tidy loan loan s.reactor (s.ensureEach addresses).2.reactor := by
  induction addresses generalizing s with
  | nil => exact .refl _
  | cons address addresses ih =>
      have first := tidy_ensureListener coherent address
      have coherent := steps_coherent (ensureListener_goes address s coherent) coherent
      unfold Site.ensureEach
      split <;> rename_i eq <;> rw [eq] at first coherent
      · exact first
      · exact first.trans (ih coherent)

theorem tidy_ensureListeners (coherent : s.reactor.Coherent loan) :
    Tidy loan loan s.reactor s.ensureListeners.2.reactor := by
  unfold Site.ensureListeners
  split
  · exact tidy_ensureEach (s := s.forgetListeners) _ coherent
  · exact .refl _

theorem tidy_applyLevel (coherent : s.reactor.Coherent loan) (level : Nat) :
    Tidy loan loan s.reactor (s.applyLevel level).2.reactor := by
  unfold Site.applyLevel
  split
  · exact .refl _
  · rename_i change filter _
    have ensured := tidy_ensureListeners (s := s.setFilter filter) coherent
    split <;> rename_i eq <;> rw [eq] at ensured
    · exact ensured
    · rename_i t
      have reconciled : Tidy loan loan t.reactor (t.reactor.reconcile t.state.filter.allowed .all).2 := tidy_checkAll _ _ _
      rw [react_eq]
      split <;> rename_i done <;> obtain ⟨-, rfl⟩ := Prod.mk.inj done <;> exact ensured.trans reconciled

theorem applyLevel_settings (level : Nat) (s : Site) : (s.applyLevel level).2.state.settings = s.state.settings := by
  rcases applyLevel_cases level s with ⟨e, -, same⟩ | ⟨_, _, -, ⟨_, _, state⟩, -⟩
  · rw [same]
  · rw [state]

structure Contained (start : Host) (settings : Settings) (loan : Option Loan) (s : Site) : Prop where
  configured : s.state.settings = settings
  removable : ∀ path ∈ settings.sockets, s.reactor.host.tree.Removable path
  loose : ∀ e, s.reactor.Loose loan e ↔ start.IsOpen e

variable {start : Host} {settings : Settings}

theorem Contained.tidy (contained : s.Contained start settings loan) {state : State} {reactor : Reactor}
    (same : state.settings = s.state.settings) (tidy : Tidy loan loan' s.reactor reactor) :
    Contained start settings loan' ⟨state, reactor⟩ where
  configured := same.trans contained.configured
  removable path mem := tidy.tree.removable (contained.removable path mem)
  loose e := (tidy.loose e).trans (contained.loose e)

theorem Contained.applyLevel (contained : s.Contained start settings loan) (coherent : s.reactor.Coherent loan)
    (level : Nat) : (s.applyLevel level).2.Contained start settings loan :=
  contained.tidy (applyLevel_settings level s) (tidy_applyLevel coherent level)

theorem Contained.deed {kind : Kind} {id : Nat} {s t : Scene State} (deed : Handlers.Deed kind id s t)
    (coherent : s.Coherent id) (contained : (Handlers.siteOf s).Contained start settings (some (s.loan id))) :
    (Handlers.siteOf t).Contained start settings (some (t.loan id)) := by
  cases deed with
  | fill =>
      change Contained start settings (some ⟨id, (s.receiver.fill s.reactor.host).2.1.endpoint⟩) _
      rw [Handlers.fill_endpoint]
      exact contained.tidy rfl (.of_quiet (Host.Still.fill _ _).quiet)
  | consume n => exact contained
  | send bytes => exact contained.tidy rfl (.of_quiet (Host.Still.sendFrom _ bytes _).quiet)
  | tick => exact contained.tidy rfl (.of_quiet (Host.Still.readTimer _).quiet)
  | @refuse listener error failed =>
      exact contained.tidy rfl (.of_quiet ((Host.yields_accept s.reactor.host listener).quiet failed))
  | @accept listener e peer ok admits =>
      have opens := Host.opens_accept s.reactor.host listener
      refine contained.tidy rfl (Coherent.tidy_opened coherent opens (Host.yields_accept _ listener) ok fun loose => ?_)
      exact Coherent.takes_register (Coherent.grow coherent opens.grows) loose _ _ _
  | unregister peer => exact contained.tidy rfl (tidy_unregister _ id)
  | forward application bytes => exact contained.tidy rfl (tidy_sendTo _ _ bytes)
  | level n leads => exact contained.applyLevel coherent n
  | note stats notices exit => exact contained.tidy rfl (.refl _)

theorem contained_keeping : Keeping (Contained start settings) where
  roused _ wait contained := contained.tidy rfl (tidy_roused wait _)
  removal _ id contained := contained.tidy rfl (tidy_unregister _ id)
  opening _ found held _ contained := contained.tidy rfl (tidy_lend found held)
  deed deed coherent contained := contained.deed deed coherent
  restore _ _ contained := contained.tidy rfl (tidy_restore _ _ _)

end Site

end TraceGate
