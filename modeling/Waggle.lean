import Waggle.Json.Codecs
import Waggle.Proofs.Acceptance
import Waggle.Proofs.Atomicity
import Waggle.Proofs.Cancellation
import Waggle.Proofs.Coincidence
import Waggle.Proofs.Concatenation
import Waggle.Proofs.Dependence
import Waggle.Proofs.EndOfInput
import Waggle.Proofs.Exactness
import Waggle.Proofs.Excerpt
import Waggle.Proofs.Feedback
import Waggle.Proofs.Height
import Waggle.Proofs.Layers
import Waggle.Proofs.Layout
import Waggle.Proofs.Legibility
import Waggle.Proofs.Nesting
import Waggle.Proofs.Pipeline
import Waggle.Proofs.Placement
import Waggle.Proofs.Prediction
import Waggle.Proofs.Printing
import Waggle.Proofs.Refinement
import Waggle.Proofs.Refusal
import Waggle.Proofs.RoundTrip
import Waggle.Proofs.Seeding
import Waggle.Proofs.Sequencing
import Waggle.Proofs.Simulation
import Waggle.Proofs.Termination
import Waggle.Proofs.Tokenisation
import Waggle.Proofs.Walking
import Waggle.Run.Inspect
