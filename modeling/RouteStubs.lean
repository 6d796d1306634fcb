import RouteStubs.Draft
import RouteStubs.Main
import RouteStubs.Proofs.Entries
import RouteStubs.Proofs.Resources
import RouteStubs.Proofs.Agreement
import RouteStubs.Proofs.Walk.Declarations
import RouteStubs.Proofs.Walk.Enumeration
import RouteStubs.Proofs.Walk.Stopping
import RouteStubs.Proofs.Walk.Agreement
import RouteStubs.Proofs.Walk.Lookup
import RouteStubs.Proofs.Walk.Additions
import RouteStubs.Proofs.Text.Words
import RouteStubs.Proofs.HandlerName
import RouteStubs.Proofs.Text.FullCase
import RouteStubs.Proofs.HandlerLaws
import RouteStubs.Proofs.Keywords
import RouteStubs.Proofs.Source.Comment
import RouteStubs.Proofs.Source.DocLines
import RouteStubs.Proofs.Source.Layout
import RouteStubs.Proofs.Source.CodeLines
import RouteStubs.Proofs.Source.ReadBack
import RouteStubs.Proofs.Source.Imports
import RouteStubs.Proofs.Source.Scope
import RouteStubs.Proofs.Source.Skipping
import RouteStubs.Proofs.Raml.Members
import RouteStubs.Proofs.Raml.Grammar
import RouteStubs.Proofs.Raml.Runs
import RouteStubs.Proofs.Raml.Bodies
import RouteStubs.Proofs.Raml.Levels
import RouteStubs.Proofs.Raml.PassedOver
import RouteStubs.Proofs.Raml.Shapes
import RouteStubs.Proofs.Raml.Uniqueness
import RouteStubs.Proofs.Raml.KeyOrder
import RouteStubs.Proofs.Raml.ParameterSpellings
import RouteStubs.Proofs.Raml.Spelling
import RouteStubs.Proofs.Raml.OwnKeys
import RouteStubs.Proofs.Yaml.Block
import RouteStubs.Proofs.Yaml.Scalars
import RouteStubs.Proofs.Yaml.BlockTokens
import RouteStubs.Proofs.Yaml.BlockEvents
import RouteStubs.Proofs.Yaml.Reading
import RouteStubs.Proofs.Yaml.TokenReading
import RouteStubs.Proofs.Yaml.TokenPlaces
import RouteStubs.Proofs.Yaml.EventPlaces
import RouteStubs.Proofs.Raml.Header
import RouteStubs.Proofs.Raml.Location
import RouteStubs.Proofs.Raml.KeyPositions
import RouteStubs.Proofs.Raml.MethodFault
import RouteStubs.Proofs.Raml.FirstFault
import RouteStubs.Proofs.Raml.ErrorSpan
import RouteStubs.Proofs.Files.Paths
import RouteStubs.Proofs.Files.Growth
import RouteStubs.Proofs.Files.Detour
import RouteStubs.Proofs.Files.FirstWrite
import RouteStubs.Proofs.Files.ReadBack
import RouteStubs.Proofs.Files.WriteEffect
import RouteStubs.Proofs.Files.Regeneration
import RouteStubs.Proofs.Json.Reader
import RouteStubs.Proofs.Listing.Json
import RouteStubs.Proofs.Listing.Table
import RouteStubs.Proofs.Cli.DryRun
import RouteStubs.Proofs.Cli.Run
import RouteStubs.Proofs.Lint.DuplicateHandler
import RouteStubs.Proofs.Lint.RepeatedHandlers
import RouteStubs.Proofs.Lint.EmptyDescription
