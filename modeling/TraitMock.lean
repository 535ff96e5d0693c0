import TraitMock.Golden
import TraitMock.LineDiff.Unified
import TraitMock.Main
import TraitMock.Must
import TraitMock.Proofs.Mock.Ledger
import TraitMock.Proofs.Mock.Limits
import TraitMock.Proofs.Mock.Prerequisites
import TraitMock.Proofs.Mock.Verdict
import TraitMock.Mock.Client
import TraitMock.Mock.ContextSession
import TraitMock.Proofs.Mock.Notes
import TraitMock.Proofs.Mock.Refusals
import TraitMock.Proofs.Mock.Places
import TraitMock.Proofs.Mock.Separation
import TraitMock.Proofs.Naming.Meaning
import TraitMock.Proofs.Naming.Carrying
import TraitMock.Proofs.Naming.Gathering
import TraitMock.Proofs.Naming.Mirroring
import TraitMock.Proofs.Naming.Reading
import TraitMock.Proofs.Naming.Preservation
import TraitMock.Proofs.Generation.OwnImports
import TraitMock.Proofs.Generation.SignatureNames
import TraitMock.Proofs.Naming.Visibility
import TraitMock.Proofs.Modules.Asking
import TraitMock.Proofs.Modules.Transparency
import TraitMock.Proofs.Syntax.Counting
import TraitMock.Proofs.Interface.Preorder
import TraitMock.Proofs.Interface.Signatures
import TraitMock.Proofs.Interface.Walk
import TraitMock.Proofs.Interface.Depth
import TraitMock.Proofs.Interface.Traversal
import TraitMock.Proofs.Interface.Supertraits
import TraitMock.Proofs.Files.Following
import TraitMock.Proofs.Modules.Placement
import TraitMock.Proofs.Modules.Agreement
import TraitMock.Proofs.Mock.Coherence
import TraitMock.Value.ArgumentType
import TraitMock.Proofs.Value.Agreement
import TraitMock.Proofs.Files.Writing
import TraitMock.Proofs.CommandLine.Batch
import TraitMock.Proofs.Syntax.Lexemes
import TraitMock.Proofs.Syntax.Pieces
import TraitMock.Proofs.Syntax.Running
import TraitMock.Proofs.Generation.Validity
import TraitMock.Proofs.Syntax.Brackets
import TraitMock.Proofs.Syntax.Patterns
import TraitMock.Proofs.Syntax.Items
import TraitMock.Proofs.Value.Equality
import TraitMock.Proofs.Arguments.History
import TraitMock.Proofs.Mock.Preference
import TraitMock.Proofs.Mock.Passing
import TraitMock.Proofs.Mock.FunctionArguments
import TraitMock.Proofs.Mock.Turns
import TraitMock.Proofs.Arguments.Outside
import TraitMock.Proofs.Mock.Omission
import TraitMock.Proofs.Mock.Withdrawal
import TraitMock.Proofs.Mock.NeverRegistered
import TraitMock.Proofs.Text.Occurrences
import TraitMock.Proofs.Mock.FunctionNames
import TraitMock.Proofs.Generation.Emission
import TraitMock.Proofs.Generation.ParameterNames
import TraitMock.Proofs.Generation.Results
import TraitMock.Proofs.Generation.Recordings
import TraitMock.Proofs.Naming.RelativePaths
import TraitMock.Proofs.Signature.Parts
import TraitMock.Proofs.Signature.Lifetimes
import TraitMock.Proofs.Signature.Quotes
import TraitMock.Proofs.Generation.Ownership
import TraitMock.Proofs.Text.Blanks
import TraitMock.Proofs.Syntax.ImportTrees
import TraitMock.Proofs.Syntax.ImportFiles
import TraitMock.Proofs.Syntax.ImportText
import TraitMock.Proofs.Modules.Imports
import TraitMock.Proofs.Generation.ImportBlocks
import TraitMock.Proofs.Testing.Cleanups
import TraitMock.Proofs.Mock.Alignment
import TraitMock.Proofs.Syntax.Attributes
import TraitMock.Proofs.Syntax.Trees
import TraitMock.Proofs.Syntax.Entries
import TraitMock.Proofs.Interface.AsyncMark
import TraitMock.Proofs.Value.TypeExpressions
import TraitMock.Proofs.Testing.GoldenData
import TraitMock.Proofs.Manifest.Tables
import TraitMock.Proofs.Manifest.Arrays
import TraitMock.Proofs.Generation.Words
import TraitMock.Proofs.Modules.Grammar
import TraitMock.Proofs.Json.Texts
import TraitMock.Proofs.Json.Reading
import TraitMock.Proofs.Json.Records
import TraitMock.Proofs.Config.Documents
import TraitMock.Proofs.Json.Writing
import TraitMock.Proofs.Generation.Declarations
import TraitMock.Proofs.Generation.Mocks
