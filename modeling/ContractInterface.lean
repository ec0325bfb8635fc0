import ContractInterface.Abi
import ContractInterface.Abi.Load
import ContractInterface.CommandLine.Arguments
import ContractInterface.CommandLine.Report
import ContractInterface.CommandLine.Run
import ContractInterface.Decimal.Binary64
import ContractInterface.Decimal.Shortest
import ContractInterface.Decimal.Significant
import ContractInterface.Declaration
import ContractInterface.Document
import ContractInterface.Failure
import ContractInterface.Files.Error
import ContractInterface.Files.Path
import ContractInterface.Files.Tree
import ContractInterface.Hex
import ContractInterface.Identifier
import ContractInterface.InternalType
import ContractInterface.Item.Basic
import ContractInterface.Item.Json
import ContractInterface.Item.Listing
import ContractInterface.Item.Object
import ContractInterface.Json.Depth
import ContractInterface.Json.Reader
import ContractInterface.Json.Shown
import ContractInterface.Json.Value
import ContractInterface.Json.Writer
import ContractInterface.Keccak
import ContractInterface.Kind
import ContractInterface.Log.Conversion
import ContractInterface.Log.Format
import ContractInterface.Log.Handler
import ContractInterface.Log.Record
import ContractInterface.Main
import ContractInterface.Mutability
import ContractInterface.Param.Basic
import ContractInterface.Param.Json
import ContractInterface.Settings.Basic
import ContractInterface.Settings.Dotenv
import ContractInterface.Settings.Given
import ContractInterface.Settings.Loader
import ContractInterface.Signature
import ContractInterface.Store
import ContractInterface.Text.Alphanumeric
import ContractInterface.Text.Blank
import ContractInterface.Text.Lines
import ContractInterface.Text.Numeral
import ContractInterface.Text.Quoted
import ContractInterface.Text.StandIn
import ContractInterface.Text.Unprintable
import ContractInterface.Text.Utf8
import ContractInterface.Text.Utf16
import ContractInterface.TopLevel
import ContractInterface.TopLevel.Wrapped
import ContractInterface.TypeSpec.Basic
import ContractInterface.TypeSpec.Fault
import ContractInterface.TypeSpec.Reader
import ContractInterface.TypedData.Definition
import ContractInterface.TypedData.Elementary
import ContractInterface.TypedData.Resolver
import ContractInterface.Proofs.Abi.Arrangement
import ContractInterface.Proofs.Abi.Selectors
import ContractInterface.Proofs.Abi.Serialization
import ContractInterface.Proofs.Sequencing
import ContractInterface.Proofs.TypedData.Reachable
import ContractInterface.Proofs.CommandLine.Refusal
import ContractInterface.Proofs.CommandLine.Run
import ContractInterface.Proofs.Declaration
import ContractInterface.Proofs.Declaration.Canonical
import ContractInterface.Proofs.InternalType
import ContractInterface.Proofs.InternalType.WellFormed
import ContractInterface.Proofs.Item.Decoding
import ContractInterface.Proofs.Item.FieldTypes
import ContractInterface.Proofs.Item.Refusal
import ContractInterface.Proofs.Item.Schema
import ContractInterface.Proofs.Log.Lines
import ContractInterface.Proofs.Operation
import ContractInterface.Proofs.Param.Canonical
import ContractInterface.Proofs.Param.Schema
import ContractInterface.Proofs.Param.Skeleton
import ContractInterface.Proofs.Param.Tree
import ContractInterface.Proofs.Refusal
import ContractInterface.Proofs.Settings
import ContractInterface.Proofs.Signature
import ContractInterface.Proofs.Signature.ReadBack
import ContractInterface.Proofs.Store.Isolation
import ContractInterface.Proofs.Store.Transparency
import ContractInterface.Proofs.TopLevel
import ContractInterface.Proofs.TypedData.Definition
import ContractInterface.Proofs.TypedData.Encoding
import ContractInterface.Proofs.TypedData.Reading
import ContractInterface.Proofs.TypedData.Supply
import ContractInterface.Proofs.TypeSpec.Derivation
import ContractInterface.Proofs.TopLevel.Pieces
import ContractInterface.Proofs.Param.Annotation
import ContractInterface.Proofs.Declaration.Grammar
import ContractInterface.Proofs.Text.Hexadecimal
import ContractInterface.Proofs.Declaration.Padding
import ContractInterface.Proofs.Declaration.TupleBody
import ContractInterface.Abi.Held
import ContractInterface.Proofs.Store.HandOut
import ContractInterface.Proofs.TypeSpec.Plain
import ContractInterface.Proofs.TypedData.Spelling
import ContractInterface.Proofs.TypedData.Ingestion
import ContractInterface.Proofs.TypedData.Roots
import ContractInterface.Proofs.Log.Levels
import ContractInterface.Proofs.TopLevel.Levels
