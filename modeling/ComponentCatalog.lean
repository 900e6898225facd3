import ComponentCatalog.Main
import ComponentCatalog.Log.Loggers
import ComponentCatalog.Proofs.DocumentOrder
import ComponentCatalog.Proofs.Constants
import ComponentCatalog.Proofs.Names
import ComponentCatalog.Proofs.Sessions
import ComponentCatalog.Proofs.InheritanceChain
import ComponentCatalog.Proofs.Facets
import ComponentCatalog.Proofs.Candidates
import ComponentCatalog.Proofs.Aliases
import ComponentCatalog.Proofs.WellFormed
import ComponentCatalog.Proofs.OneByOne
import ComponentCatalog.Proofs.Places
import ComponentCatalog.Proofs.Assembly
import ComponentCatalog.Proofs.Nesting
import ComponentCatalog.Proofs.Requests
import ComponentCatalog.Proofs.Walks
import ComponentCatalog.Proofs.Locality
import ComponentCatalog.Proofs.Handlers
import ComponentCatalog.Proofs.WalkOrder
import ComponentCatalog.Proofs.JsonText
import ComponentCatalog.Proofs.Policies
import ComponentCatalog.Proofs.WrittenDocuments
import ComponentCatalog.Proofs.Files
import ComponentCatalog.Proofs.Runs
import ComponentCatalog.Proofs.OneFileEach
import ComponentCatalog.Proofs.Below
import ComponentCatalog.Proofs.Footprint
import ComponentCatalog.Proofs.Listing
import ComponentCatalog.Proofs.Relisted
import ComponentCatalog.Proofs.Untouched
import ComponentCatalog.Proofs.Utf8
import ComponentCatalog.Proofs.JsonTokens
import ComponentCatalog.Proofs.JsonGrammar
import ComponentCatalog.Proofs.SourceMaps
import ComponentCatalog.Proofs.YamlReading
import ComponentCatalog.Proofs.YamlFaults
import ComponentCatalog.Proofs.YamlBuilding
import ComponentCatalog.Proofs.ConfigFiles
import ComponentCatalog.Proofs.ConfigLevels
import ComponentCatalog.Proofs.Trimming
import ComponentCatalog.Proofs.MergedEvents
import ComponentCatalog.Proofs.TypeReading
import ComponentCatalog.Proofs.TypeDeclarations
import ComponentCatalog.Proofs.CallableTypes
import ComponentCatalog.Proofs.Nullability
import ComponentCatalog.Proofs.Searches
import ComponentCatalog.Proofs.ArtifactSearch
import ComponentCatalog.Proofs.VisibleProperties
import ComponentCatalog.Proofs.StyleRegistrations
import ComponentCatalog.Proofs.EligibleMethods
import ComponentCatalog.Proofs.AlikeExpressions
import ComponentCatalog.Proofs.FileLevel
import ComponentCatalog.Proofs.Collapsing
import ComponentCatalog.Proofs.Templates
import ComponentCatalog.Proofs.CallSites
import ComponentCatalog.Proofs.FetchedPages
import ComponentCatalog.Proofs.SmallLetters
import ComponentCatalog.Proofs.ManualPages
import ComponentCatalog.Proofs.ChosenSources
import ComponentCatalog.Proofs.WritableBefore
import ComponentCatalog.Proofs.LoggedRecords
import ComponentCatalog.Proofs.OneComponent
import ComponentCatalog.Proofs.Stems
import ComponentCatalog.Proofs.DocumentChoices
