import Metrology.Component.WellFormed
import Metrology.Crawl.Together
import Metrology.Interchange.Document
import Metrology.Interchange.Shape
import Metrology.Proofs.Aggregation.ExactSums
import Metrology.Proofs.Computers.Interference
import Metrology.Proofs.Computers.Reads
import Metrology.Proofs.Computers.Accounts
import Metrology.Proofs.Aggregation.Growth
import Metrology.Proofs.Passes
import Metrology.Proofs.Aggregation.Tallies
import Metrology.Proofs.Batches
import Metrology.Proofs.Aggregation.Fusion
import Metrology.Proofs.SharedWalk
import Metrology.Proofs.Aggregation.Logs
import Metrology.Proofs.Histories
import Metrology.Proofs.Computers.Logs
import Metrology.Proofs.Books
import Metrology.Proofs.LeafDepth
import Metrology.Proofs.Aggregation.Groupings
import Metrology.Proofs.Indexing
import Metrology.Proofs.TreeShape
import Metrology.Proofs.Computers.Refusals
import Metrology.Proofs.PathCrawls
import Metrology.Proofs.Aggregation.Failures
import Metrology.Proofs.Aggregation.Reruns
import Metrology.Proofs.Aggregation.Doubles
import Metrology.Proofs.Aggregation.Calls
import Metrology.Proofs.Computers.Sessions
import Metrology.Proofs.Catalogs
import Metrology.Proofs.Interruptions
import Metrology.Proofs.Routes
import Metrology.Proofs.Descendants
import Metrology.Proofs.Items
import Metrology.Proofs.Documents
