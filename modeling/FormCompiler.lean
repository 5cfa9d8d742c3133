import FormCompiler.Ir.Printer
import FormCompiler.Lower.Evaluation
import FormCompiler.Lower.Rules
import FormCompiler.Lower.TopLevel
import FormCompiler.Proofs.CleanupDiscipline
import FormCompiler.Proofs.Context.EnumFunctions
import FormCompiler.Proofs.EnumAtomicity
import FormCompiler.Proofs.EnumEntryPoints
import FormCompiler.Proofs.InsertionBlocks
import FormCompiler.Proofs.Ir.Dominance
import FormCompiler.Proofs.Ir.Execution
import FormCompiler.Proofs.Lower.Plain
import FormCompiler.Proofs.MeaningPreservation
import FormCompiler.Proofs.ModuleTyping
import FormCompiler.Proofs.Repeatability
import FormCompiler.Proofs.ResultConsistency
import FormCompiler.Proofs.SingleAssignment
import FormCompiler.Proofs.TypePreservation
import FormCompiler.Proofs.Context.Accounted
import FormCompiler.Proofs.Lower.Refusals
import FormCompiler.Proofs.SymbolSeparation
import FormCompiler.Proofs.Context.Reporting
import FormCompiler.Proofs.ErrorReporting
import FormCompiler.Proofs.Termination
import FormCompiler.Proofs.MacroTransparency
import FormCompiler.Proofs.TopLevelTermination
import FormCompiler.Proofs.OperationAtomicity
import FormCompiler.Proofs.LayoutAgreement
import FormCompiler.Proofs.NamespaceTree
import FormCompiler.Proofs.FunctionTables
import FormCompiler.Proofs.QueueAccounting
import FormCompiler.Proofs.SilentFailures
import FormCompiler.Proofs.LiteralExactness
import FormCompiler.Proofs.IndexSafety
import FormCompiler.Proofs.EnumNumbering
import FormCompiler.Proofs.MemberLiterals
import FormCompiler.Proofs.Ir.Returning
import FormCompiler.Proofs.Ir.Words
import FormCompiler.Proofs.EnumMeaning
import FormCompiler.Proofs.CleanupExactness
import FormCompiler.Proofs.PointerForms
import FormCompiler.Proofs.PoolIdentity
import FormCompiler.Proofs.TypeTables
import FormCompiler.Proofs.TypeDescent
import FormCompiler.Proofs.ConstantPrinting
import FormCompiler.Proofs.BranchOwnership
import FormCompiler.Proofs.ExpansionLimit
import FormCompiler.Proofs.ReturnedOwnership
import FormCompiler.Proofs.SymbolDecoding
import FormCompiler.Proofs.DeclarationAtomicity
import FormCompiler.Proofs.History
import FormCompiler.Proofs.TypeNames
import FormCompiler.Proofs.HiddenStructs
import FormCompiler.Proofs.BuiltTrees
import FormCompiler.Proofs.Redeclarations
import FormCompiler.Proofs.BackendRefusals
