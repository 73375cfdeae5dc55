import Scriptlet.Bench
import Scriptlet.Main
import Scriptlet.Proofs.Core.Refinement
import Scriptlet.Proofs.LateTypes
import Scriptlet.Proofs.Check.Soundness
import Scriptlet.Proofs.Token.Printing
import Scriptlet.Proofs.Token.Spacing
import Scriptlet.Proofs.Grammar.Concatenation
import Scriptlet.Proofs.Grammar.Acceptance
import Scriptlet.Proofs.Grammar.Completeness
import Scriptlet.Proofs.Check.Rewinding
import Scriptlet.Proofs.Scope.Mangling
import Scriptlet.Proofs.TypeName
