import Listing.Service
import Listing.Value.Entries
import Listing.Proofs.FollowingLinks
import Listing.Proofs.CountingModes
import Listing.Proofs.BuildFaults
import Listing.Proofs.BoundValues
import Listing.Proofs.AllowedEntries
import Listing.Proofs.IntegerFilters
import Listing.Proofs.SortedRows
import Listing.Proofs.PolicyNames
import Listing.Proofs.RequestBounds
import Listing.Proofs.PageRows
import Listing.Proofs.PageLinks
import Listing.Proofs.AcceptedPolicies
import Listing.Proofs.ContainedTerms
import Listing.Proofs.Sql.Parameters
import Listing.Proofs.BoundIntegers
import Listing.Proofs.Sql.Summaries
import Listing.Proofs.Sql.WiderStatements
import Listing.Proofs.WiderItems
import Listing.Proofs.AttachedAggregates
import Listing.Proofs.CollectedFilters
import Listing.Proofs.EmptyValues
import Listing.Proofs.Number.DecimalSpellings
import Listing.Proofs.Constructors
import Listing.Proofs.BuiltConditions
import Listing.Proofs.TracedBuilds
import Listing.Proofs.RepeatedValues
import Listing.Proofs.SurroundedEntries
import Listing.Proofs.ListedValues
import Listing.Proofs.ListedConditions
import Listing.Proofs.GroupedFields
import Listing.Proofs.LinkedPages
import Listing.Proofs.LoadedRelations
import Listing.Proofs.RecordsAlongPaths
