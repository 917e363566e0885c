import DocumentStore.Main
import DocumentStore.Transport.Script
import DocumentStore.Proofs.Store.FiniteMap
import DocumentStore.Proofs.Store.Identifiers
import DocumentStore.Proofs.Store.LostUpdate
import DocumentStore.Proofs.Store.Pagination
import DocumentStore.Proofs.Store.Reload
import DocumentStore.Proofs.Store.Walk
import DocumentStore.Proofs.Store.AllOrNothing
import DocumentStore.Proofs.CommandLine.Processes
import DocumentStore.Proofs.Statement.FailFast
import DocumentStore.Proofs.Statement.InsertText
import DocumentStore.Proofs.Statement.Parameters
import DocumentStore.Proofs.Statement.SameTarget
import DocumentStore.Proofs.Statement.Verdict
import DocumentStore.Proofs.Statement.Options
import DocumentStore.Proofs.Statement.QueryText
import DocumentStore.Proofs.Statement.SelectText
import DocumentStore.Proofs.Statement.ArgumentCount
import DocumentStore.Proofs.Statement.PartitionKey
import DocumentStore.Proofs.Store.Deletion
import DocumentStore.Proofs.Store.Commuting
import DocumentStore.Proofs.Statement.Placeholders
import DocumentStore.Proofs.Statement.Overlay
import DocumentStore.Proofs.Store.Frame
import DocumentStore.Proofs.Statement.CrossPartition
import DocumentStore.Proofs.Statement.DefaultCollection
import DocumentStore.Proofs.Statement.Surroundings
import DocumentStore.Proofs.Statement.Continuation
import DocumentStore.Proofs.Statement.EmptyId
import DocumentStore.Proofs.Statement.IdGrammar
import DocumentStore.Proofs.Statement.WellFormed
import DocumentStore.Proofs.Rows
import DocumentStore.Proofs.Statement.Progress
import DocumentStore.Proofs.Statement.OnePlaceholder
