import CodeOutline.Entity.Query
import CodeOutline.FileTree
import CodeOutline.Main
import CodeOutline.Proofs.CommandLine.ForeignText
import CodeOutline.Proofs.CommandLine.Request
import CodeOutline.Proofs.Docstring.Account
import CodeOutline.Proofs.Docstring.Spelling
import CodeOutline.Proofs.Entity.Drafting
import CodeOutline.Proofs.FrontEnds
import CodeOutline.Proofs.Java.ClauseComments
import CodeOutline.Proofs.Java.DocumentationBlocks
import CodeOutline.Proofs.Java.NestedFaults
import CodeOutline.Proofs.Java.Preorder
import CodeOutline.Proofs.Java.Problems
import CodeOutline.Proofs.Java.TypeExpression
import CodeOutline.Proofs.Java.WellFormed
import CodeOutline.Proofs.Javadoc.Canonical
import CodeOutline.Proofs.Javadoc.Indentation
import CodeOutline.Proofs.Placement
import CodeOutline.Proofs.Python.BoundNames
import CodeOutline.Proofs.Python.ImportPaths
import CodeOutline.Proofs.Python.LineNumbers
import CodeOutline.Proofs.Python.SourceRoot
import CodeOutline.Proofs.Python.WellPlaced
import CodeOutline.Proofs.Registry.Spelling
import CodeOutline.Proofs.Serialization
import CodeOutline.Proofs.Source.Offset
import CodeOutline.Proofs.Source.Span
import CodeOutline.Tools
