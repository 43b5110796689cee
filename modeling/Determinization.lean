import Determinization.Declaration.Code
import Determinization.Main
import Determinization.Session
import Determinization.Settings.Change
import Determinization.Proofs.Automaton.Absorption
import Determinization.Proofs.Automaton.Closure
import Determinization.Proofs.Automaton.Discovery
import Determinization.Proofs.Automaton.FirstFault
import Determinization.Proofs.Automaton.FirstViolation
import Determinization.Proofs.Automaton.Indistinguishable
import Determinization.Proofs.Automaton.Pruning
import Determinization.Proofs.Automaton.TransitionGraph
import Determinization.Proofs.Automaton.Walk
import Determinization.Proofs.CommandLine.Options
import Determinization.Proofs.Comparison.Refinement
import Determinization.Proofs.Declaration.Parts
import Determinization.Proofs.Encoding.CanonicalForm
import Determinization.Proofs.Encoding.Malformed
import Determinization.Proofs.Encoding.Naming
import Determinization.Proofs.Encoding.Positions
import Determinization.Proofs.Guarded.Worklist
import Determinization.Proofs.Readability.Documents
import Determinization.Proofs.Readability.Names
import Determinization.Proofs.Session.Obtained
import Determinization.Proofs.Session.Soundness
import Determinization.Proofs.Session.Wrapping
import Determinization.Proofs.State.Order
