import PageTree.Collections.Select
import PageTree.CommandLine
import PageTree.Config.Source
import PageTree.LinkedData
import PageTree.Main
import PageTree.Render
import PageTree.Site
import PageTree.Proofs.Characters
import PageTree.Proofs.Pieces
import PageTree.Proofs.Scan
import PageTree.Proofs.Literals
import PageTree.Proofs.Cuts
import PageTree.Proofs.Walk
import PageTree.Proofs.Assembly
import PageTree.Proofs.Environment
import PageTree.Proofs.Inlining
import PageTree.Proofs.History
import PageTree.Proofs.Limit
import PageTree.Proofs.Moments
import PageTree.Proofs.Outline
import PageTree.Proofs.DocumentOrder
import PageTree.Proofs.OpeningTag
import PageTree.Proofs.TemplateFolder
import PageTree.Proofs.Compiling
import PageTree.Proofs.ShownTexts
import PageTree.Proofs.Assigning
import PageTree.Proofs.RequestValues
import PageTree.Proofs.DistinctKeys
import PageTree.Proofs.Replacing
import PageTree.Proofs.Strings
import PageTree.Proofs.CompileOrder
import PageTree.Proofs.Recompiling
import PageTree.Proofs.KeyOrder
import PageTree.Proofs.Merging
import PageTree.Proofs.Seeds
import PageTree.Proofs.InPlace
import PageTree.Proofs.GuardedJson
import PageTree.Proofs.ShortestDecimals
import PageTree.Proofs.NumberTexts
import PageTree.Proofs.PrintedJson
import PageTree.Proofs.PageScripts
import PageTree.Proofs.Layers
import PageTree.Proofs.SeedFiles
import PageTree.Proofs.Selecting
import PageTree.Proofs.CutPlaces
import PageTree.Proofs.Minimizing
import PageTree.Proofs.Rejoining
import PageTree.Proofs.Scopes
import PageTree.Proofs.Unrendered
import PageTree.Proofs.AttributeValues
import PageTree.Proofs.TokenAttributes
import PageTree.Proofs.CompiledShape
import PageTree.Proofs.Removing
import PageTree.Proofs.MergedLeaves
import PageTree.Proofs.ExpandedKeys
import PageTree.Proofs.SingleEntries
import PageTree.Proofs.MissingValues
import PageTree.Proofs.Expanding
import PageTree.Proofs.ReferenceDepth
import PageTree.Proofs.Calendar
import PageTree.Proofs.DateTexts
import PageTree.Proofs.DatePasses
import PageTree.Proofs.RefusedTrees
import PageTree.Proofs.LoneChildren
import PageTree.Proofs.SheetTexts
import PageTree.Proofs.HeadScripts
import PageTree.Proofs.TopLevelKeys
import PageTree.Proofs.Comments
