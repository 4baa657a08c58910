import StackScript.Bundle
import StackScript.Code
import StackScript.Code.Json
import StackScript.Code.Listing
import StackScript.Code.Lowering
import StackScript.CommandLine.Arguments
import StackScript.CommandLine.Compile
import StackScript.CommandLine.Inspect
import StackScript.CommandLine.Report
import StackScript.CommandLine.Tool
import StackScript.Compiler
import StackScript.Files
import StackScript.Json
import StackScript.Json.Reader
import StackScript.Literal
import StackScript.Log
import StackScript.Main
import StackScript.Tree
import StackScript.Outline
import StackScript.Text.Bytes
import StackScript.Reading
import StackScript.Scope
import StackScript.Source
import StackScript.SyntaxError
import StackScript.Text.Classes
import StackScript.Text.Written
import StackScript.Token
import StackScript.Token.Lexer
import StackScript.Tree.Parser
import StackScript.Tree.Outline
import StackScript.Tree.Printer
import StackScript.Proofs.Spelling
import StackScript.Proofs.Grammar
import StackScript.Proofs.ParserSound
import StackScript.Proofs.ParserComplete
import StackScript.Proofs.ParserExact
import StackScript.Proofs.Symbols
import StackScript.Proofs.WellFormed
import StackScript.Proofs.Literals
import StackScript.Proofs.RoundTrip
import StackScript.Proofs.Blocks
import StackScript.Proofs.Machine
import StackScript.Proofs.Meaning
import StackScript.Proofs.Simulation
import StackScript.Proofs.StackDiscipline
import StackScript.Proofs.Scoping
import StackScript.Proofs.Desugar
import StackScript.Proofs.Raising
import StackScript.Proofs.ParserUniform
import StackScript.Proofs.LongestMatch
import StackScript.Proofs.Respacing
import StackScript.Proofs.Joined
import StackScript.Proofs.JsonText
import StackScript.Proofs.BundleStream
import StackScript.Proofs.Renaming
import StackScript.Proofs.Tiling
import StackScript.Proofs.Blame
import StackScript.Proofs.ParserBlame
import StackScript.Proofs.FirstFault
import StackScript.Proofs.LayoutFree
import StackScript.Proofs.Pointing
import StackScript.Proofs.SlotOrder
import StackScript.Proofs.BundleFrame
import StackScript.Proofs.ListingText
import StackScript.Proofs.FileWrites
import StackScript.Proofs.CompilerRuns
import StackScript.Proofs.BundleRoom
import StackScript.Proofs.LineTable
import StackScript.Proofs.Escapes
import StackScript.Proofs.SlotFailure
import StackScript.Proofs.InvalidTokens
import StackScript.Proofs.Stepping
import StackScript.Proofs.ReaderCursor
