import EvmInspect.Abi.Encode
import EvmInspect.Main
import EvmInspect.Ledger.Changes
import EvmInspect.Proofs.Ledger.Refinement
import EvmInspect.Proofs.Ledger.Residue
import EvmInspect.Proofs.Trace.CallTree
import EvmInspect.Proofs.Ledger.Numbering
import EvmInspect.Proofs.Trace.Flattening
import EvmInspect.Proofs.Trace.Emitters
import EvmInspect.Proofs.Trace.LineEnds
import EvmInspect.Proofs.Abi.Names
import EvmInspect.Proofs.Trace.Names
import EvmInspect.Proofs.Trace.ReportLines
import EvmInspect.Proofs.Ledger.History
import EvmInspect.Proofs.Ledger.SlotWarmth
import EvmInspect.Proofs.Ledger.FirstValues
import EvmInspect.Proofs.Ledger.Fetching
import EvmInspect.Proofs.Ledger.Conservation
import EvmInspect.Proofs.Abi.Registrations
import EvmInspect.Proofs.Ledger.Erasure
import EvmInspect.Proofs.Node.Interchange
import EvmInspect.Proofs.Trace.Consistency
import EvmInspect.Proofs.Abi.ReadBack
import EvmInspect.Proofs.Trace.Arguments
import EvmInspect.Proofs.Node.Attempts
import EvmInspect.Proofs.Ledger.Restoring
import EvmInspect.Proofs.Ledger.WriteOnce
import EvmInspect.Proofs.Ledger.ChangeReport
import EvmInspect.Proofs.Ledger.AddressWarmth
import EvmInspect.Proofs.Trace.EventArguments
import EvmInspect.Proofs.Trace.RevertSources
import EvmInspect.Proofs.Settings.Previews
import EvmInspect.Proofs.Trace.StandardErrors
import EvmInspect.Proofs.Command.Actions
import EvmInspect.Proofs.Command.Entries
import EvmInspect.Proofs.Ledger.Asking
import EvmInspect.Proofs.Node.Conversations
import EvmInspect.Proofs.Command.AccountReading
import EvmInspect.Proofs.Text.StorageKeys
import EvmInspect.Proofs.Command.AccountRequests
import EvmInspect.Proofs.Text.Addresses
import EvmInspect.Proofs.Json.Payloads
import EvmInspect.Proofs.Ledger.AccessLists
import EvmInspect.Proofs.Ledger.Totals
