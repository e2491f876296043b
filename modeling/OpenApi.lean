import OpenApi.Text.Word
import OpenApi.Text.Digit
import OpenApi.Text.Printable
import OpenApi.Text.Lowercase
import OpenApi.Text.Blank
import OpenApi.Text.Replace
import OpenApi.Text.Percent
import OpenApi.Name.Identifier
import OpenApi.Number.Basic
import OpenApi.TypeUse
import OpenApi.Json.Reader
import OpenApi.Json.Writer
import OpenApi.Reference
import OpenApi.Schema.Memory
import OpenApi.Client.Resolve
import OpenApi.Client.Dump
import OpenApi.Client.Read
import OpenApi.Yaml.Value
import OpenApi.Settings.Resolve
import OpenApi.CommandLine.Run
import OpenApi.Main
import OpenApi.Proofs.OperationNames
import OpenApi.Proofs.Termination
import OpenApi.Proofs.ClosedModels
import OpenApi.Proofs.Resolution
import OpenApi.Proofs.Imports
import OpenApi.Proofs.Texts
import OpenApi.Proofs.TypeExpressions
import OpenApi.Proofs.TypeImports
import OpenApi.Proofs.TypeTokens
import OpenApi.Proofs.ReferenceNames
import OpenApi.Proofs.Inventory
import OpenApi.Proofs.Memory
import OpenApi.Proofs.JsonValues
import OpenApi.Proofs.BuildFailures
import OpenApi.Proofs.Numerals
import OpenApi.Proofs.OperationFailures
import OpenApi.Proofs.ServerAddress
import OpenApi.Proofs.Failures
import OpenApi.Proofs.Decoding
import OpenApi.Proofs.Migration
import OpenApi.Proofs.InStep
import OpenApi.Proofs.MovedReferences
import OpenApi.Proofs.MigratedDocument
import OpenApi.Proofs.MigratedSchemas
import OpenApi.Proofs.MigratedOperations
import OpenApi.Proofs.DialectParity
import OpenApi.Proofs.DanglingReferences
import OpenApi.Proofs.DefinitionNames
import OpenApi.Proofs.RequiredProperties
import OpenApi.Proofs.FixedProperties
import OpenApi.Proofs.Shapes
import OpenApi.Proofs.DefaultValues
import OpenApi.Proofs.Nullability
import OpenApi.Proofs.Entries
import OpenApi.Proofs.FiledOnce
import OpenApi.Proofs.Inherited
import OpenApi.Proofs.AddedDefinitions
import OpenApi.Proofs.AddedModels
import OpenApi.Proofs.Locality
import OpenApi.Proofs.DeclaredParameters
import OpenApi.Proofs.ModelSources
import OpenApi.Proofs.ArrangedParameters
import OpenApi.Proofs.ExcludedParameters
import OpenApi.Proofs.CamelCase
import OpenApi.Proofs.ParameterNames
import OpenApi.Proofs.Correspondence
import OpenApi.Proofs.CorrespondingOperations
import OpenApi.Proofs.QuotedKeys
import OpenApi.Proofs.QuotedReferences
import OpenApi.Proofs.QuotedSchemas
import OpenApi.Proofs.QuotedOperations
import OpenApi.Proofs.QuotedDocument
import OpenApi.Proofs.FailingJobs
import OpenApi.Proofs.Rounding
import OpenApi.Proofs.ShortestText
import OpenApi.Proofs.JsonNumbers
import OpenApi.Proofs.JsonTokens
import OpenApi.Proofs.JsonTexts
import OpenApi.Proofs.Actions
import OpenApi.Proofs.ClientNodes
import OpenApi.Proofs.ClientNumbers
import OpenApi.Proofs.Disks
import OpenApi.Proofs.JsonCharacters
import OpenApi.Proofs.SettingsHistory
import OpenApi.Proofs.StrictJson
import OpenApi.Proofs.JsonLimits
import OpenApi.Proofs.LoadedSources
import OpenApi.Proofs.OutputForms
import OpenApi.Proofs.WritableValues
import OpenApi.Proofs.WrittenClients
import OpenApi.Proofs.PrintedResults
import OpenApi.Proofs.KeptResults
import OpenApi.Proofs.PromotedProperties
import OpenApi.Proofs.DistinctProperties
import OpenApi.Proofs.RecordProperties
import OpenApi.Proofs.LiftedEnums
import OpenApi.Proofs.AdditionalProperties
import OpenApi.Proofs.VendorNames
import OpenApi.Proofs.ReadLiterals
import OpenApi.Proofs.ComposedMembers
import OpenApi.Proofs.DroppedValues
import OpenApi.Proofs.EnumDefaults
import OpenApi.Proofs.Addresses
import OpenApi.Proofs.FollowedReferences
import OpenApi.Proofs.TidyModels
import OpenApi.Proofs.Register
import OpenApi.Proofs.ReorderedResponses
import OpenApi.Proofs.SharedParts
import OpenApi.Proofs.SelectedContent
import OpenApi.Proofs.ServerVariables
import OpenApi.Proofs.KeptLetters
import OpenApi.Proofs.GeneratedNames
import OpenApi.Proofs.SettingsSources
import OpenApi.Proofs.ListedRows
