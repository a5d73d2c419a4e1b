import TraceGate.Daemon.Lifecycle
import TraceGate.Main
import TraceGate.Proofs.Daemon.Admission
import TraceGate.Proofs.Daemon.Codec
import TraceGate.Proofs.Daemon.Conversation
import TraceGate.Proofs.Daemon.Delivery
import TraceGate.Proofs.Daemon.Ending
import TraceGate.Proofs.Daemon.Loss
import TraceGate.Proofs.Daemon.Notices
import TraceGate.Proofs.Daemon.Obedience
import TraceGate.Proofs.Daemon.Peers
import TraceGate.Proofs.Daemon.Permission
import TraceGate.Proofs.Daemon.Policy
import TraceGate.Proofs.Daemon.Standing
import TraceGate.Proofs.Daemon.Targets
import TraceGate.Proofs.Daemon.Tending
import TraceGate.Proofs.Daemon.Wake
import TraceGate.Proofs.Filter.Acceptance
import TraceGate.Proofs.Filter.Arrangement
import TraceGate.Proofs.Filter.ControlLists
import TraceGate.Proofs.Filter.Decision
import TraceGate.Proofs.Filter.ServiceNumbers
import TraceGate.Proofs.Filter.Steering
import TraceGate.Proofs.Reactor.Counter
import TraceGate.Proofs.Reactor.Fairness
import TraceGate.Proofs.Reactor.Foremost
import TraceGate.Proofs.Reactor.Refusing
import TraceGate.Proofs.Reactor.Releasing
import TraceGate.Proofs.Reactor.Roll
