import SchemaAssist.Token.Listing
import SchemaAssist.Version
import SchemaAssist.Main
import SchemaAssist.Proofs.AttributeCompletion
import SchemaAssist.Proofs.Concatenation
import SchemaAssist.Proofs.BlockLocation
import SchemaAssist.Proofs.CompletionAgreement
import SchemaAssist.Proofs.EarliestError
import SchemaAssist.Proofs.Token.Partition
import SchemaAssist.Proofs.SessionCache
import SchemaAssist.Proofs.TypeCompletion
import SchemaAssist.Proofs.Grammar.FieldPlaces
import SchemaAssist.Proofs.Layout.Leading
import SchemaAssist.Proofs.MemberAgreement
import SchemaAssist.Proofs.EditorLines
import SchemaAssist.Proofs.ProviderAgreement
import SchemaAssist.Proofs.LineEndings
import SchemaAssist.Proofs.FreeLayout
import SchemaAssist.Proofs.RightOfCursor
import SchemaAssist.Proofs.AttributeSuggestions
import SchemaAssist.Proofs.OpenArguments
import SchemaAssist.Proofs.FieldContexts
import SchemaAssist.Proofs.WellFormedTrees
import SchemaAssist.Proofs.ErrorPlaces
import SchemaAssist.Proofs.EditedLine
import SchemaAssist.Proofs.ArgumentLists
import SchemaAssist.Proofs.InsideStrings
import SchemaAssist.Proofs.RelationLists
import SchemaAssist.Proofs.Termination
import SchemaAssist.Proofs.SettingsLayers
import SchemaAssist.Proofs.Literals
import SchemaAssist.Proofs.SettingsRefusals
