import TurtlePlant.Decimal.Places
import TurtlePlant.Main
import TurtlePlant.Proofs.Depths
import TurtlePlant.Proofs.Heading
import TurtlePlant.Proofs.Memory
import TurtlePlant.Proofs.Pruning
import TurtlePlant.Proofs.Sizes
import TurtlePlant.Scalar.Quantity
import TurtlePlant.Proofs.Lockstep
import TurtlePlant.Proofs.Stillness
import TurtlePlant.Proofs.Times
import TurtlePlant.Proofs.Draws
import TurtlePlant.Proofs.Integers
import TurtlePlant.Proofs.Saving
import TurtlePlant.Proofs.Jobs
import TurtlePlant.Proofs.Calls
import TurtlePlant.Proofs.Nesting
import TurtlePlant.Proofs.Tallies
import TurtlePlant.Proofs.Magnifying
import TurtlePlant.Proofs.Upright
import TurtlePlant.Proofs.Alignment
import TurtlePlant.Proofs.Ledger
import TurtlePlant.Proofs.Failures
import TurtlePlant.Proofs.Hues
import TurtlePlant.Proofs.Orbit
import TurtlePlant.Proofs.Generations
import TurtlePlant.Proofs.Packing
import TurtlePlant.Proofs.Demands
import TurtlePlant.Proofs.Gradient
import TurtlePlant.Proofs.Framing
import TurtlePlant.Proofs.Bytes
import TurtlePlant.Proofs.Skeletons
import TurtlePlant.Proofs.Lengths
import TurtlePlant.Proofs.Turns
import TurtlePlant.Proofs.Unclosed
