import TraceGate.Proofs.Daemon.Life
import TraceGate.Proofs.Reactor.Turns

namespace TraceGate

open Connection

namespace Daemon

variable {settings : Settings} {filter : Filter.MessageFilter} {entries : List Entry} {d : Daemon}

def turns (d : Daemon) (wait : Wait) : List (Occasion State) :=
  d.site.reactor.turns wait Handlers.ofKind d.site.state

def Entry.turns : Entry → List (Occasion State)
  | round d wait => d.turns wait
  | level _ _ => []

theorem Entry.mem_turns {entry : Entry} {o : Occasion State} (mem : o ∈ entry.turns) :
    ∃ d wait, entry = .round d wait ∧ o ∈ d.turns wait := by
  cases entry with
  | round d wait => exact ⟨d, wait, rfl, mem⟩
  | level d level => cases mem

theorem shutdown_cases (reachable : d.site.reactor.Reachable) : d.shutdown = d ∧ d.isShutDown = true ∨
    d.shutdown.isShutDown = true ∧ d.shutdown.site.state = d.site.state ∧
      d.shutdown.site.reactor.ids = d.site.reactor.ids ∧ d.shutdown.site.reactor.connections = [] := by
  obtain ⟨keys, counter⟩ := reachable.coherent.unregisterAll_keys (d.site.reactor.connections.map (·.id))
  have keys : d.site.reactor.cleanup.keys = [] := by
    rw [Reactor.cleanup, keys, ← Reactor.map_fst_keys, strike_all]
  have connections : d.site.reactor.cleanup.connections = [] := List.map_eq_nil_iff.1 keys
  unfold shutdown
  split
  · rename_i ended
    exact Or.inl ⟨rfl, ended⟩
  · exact Or.inr ⟨rfl, rfl, counter, connections⟩

theorem History.before (history : History settings filter entries d) {earlier : Daemon} {wait : Wait}
    (mem : .round earlier wait ∈ entries) : ∃ entries', History settings filter entries' earlier := by
  induction history with
  | start sound ok => cases mem
  | @runOnce entries d before wait ih =>
      rcases List.mem_cons.1 mem with same | mem
      · cases same
        exact ⟨entries, before⟩
      · exact ih mem
  | setLevel before level ih => exact ih ((List.mem_cons.1 mem).resolve_left (by rintro ⟨⟩))
  | beside before elapses ih => exact ih mem
  | shutdown before ih => exact ih mem

end Daemon

end TraceGate
