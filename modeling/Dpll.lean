import Dpll.Dimacs.Layout
import Dpll.Engine.Session
import Dpll.Formula.Order
import Dpll.Formula.PlainSearch
import Dpll.Main
import Dpll.Proofs.Answers
import Dpll.Proofs.Consistency
import Dpll.Proofs.Limits
import Dpll.Proofs.Lockstep
import Dpll.Proofs.PrintedAnswer
import Dpll.Proofs.Consequences
import Dpll.Proofs.Requests
import Dpll.Proofs.Grammar
import Dpll.Proofs.Layouts
import Dpll.Proofs.Levels
import Dpll.Proofs.Rounds
import Dpll.Proofs.Retreats
import Dpll.Proofs.Termination
import Dpll.Proofs.Accounting
import Dpll.Proofs.Calls
import Dpll.Proofs.Restoration
import Dpll.Proofs.TrailHistory
import Dpll.Proofs.Compaction
import Dpll.Proofs.InPlace
import Dpll.Proofs.Rejections
import Dpll.Proofs.MachineWords
