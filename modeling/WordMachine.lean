import WordMachine.Command.FileSystem
import WordMachine.Host
import WordMachine.Machine.Run
import WordMachine.Main
import WordMachine.Proofs.Assembly.Agreement
import WordMachine.Proofs.Assembly.Reports
import WordMachine.Proofs.Assembly.Language
import WordMachine.Proofs.Assembly.Desugaring
import WordMachine.Proofs.Listing.RoundTrip
import WordMachine.Proofs.Listing.Assembled
import WordMachine.Proofs.Machine.Range
import WordMachine.Proofs.Machine.Suspension
import WordMachine.Proofs.Machine.Atomic
import WordMachine.Proofs.Machine.Answering
import WordMachine.Proofs.Machine.Account
import WordMachine.Proofs.Host
import WordMachine.Proofs.Machine.Returns
import WordMachine.Proofs.Command.Dialogue
import WordMachine.Proofs.Listing.Plain
import WordMachine.Proofs.Machine.Faults
import WordMachine.Proofs.Machine.Arithmetic
import WordMachine.Proofs.Machine.Locality
import WordMachine.Proofs.Machine.Budget
import WordMachine.Proofs.Machine.Transaction
import WordMachine.Proofs.Assembly.Negation
import WordMachine.Proofs.Assembly.Printing
import WordMachine.Proofs.Listing.Folding
import WordMachine.Proofs.Listing.References
import WordMachine.Proofs.Assembly.Rearrangement
import WordMachine.Proofs.Assembly.Table
import WordMachine.Proofs.Assembly.Offenders
import WordMachine.Proofs.Assembly.Guards
import WordMachine.Proofs.Listing.Tiling
import WordMachine.Proofs.Text.Grammar
import WordMachine.Proofs.Machine.Reload
