import EventBindings.Proofs.Element.Edits
import EventBindings.Main
import EventBindings.Proofs.Element.Errors
import EventBindings.Proofs.Element.Recompilation
import EventBindings.Proofs.Conflict
import EventBindings.Proofs.Element.Requests
import EventBindings.Proofs.StableOrder
import EventBindings.Proofs.Element.Arrangement
import EventBindings.Proofs.Element.Rearrangement
import EventBindings.Proofs.KeyEvents
import EventBindings.Proofs.Element.SharedEvents
import EventBindings.Proofs.CanonicalForm
import EventBindings.Proofs.Element.MapLookups
import EventBindings.Proofs.Element.SingleAttribute
import EventBindings.Proofs.Token.Separators
import EventBindings.Proofs.Text.Spacing
import EventBindings.Proofs.Token.Spacing
import EventBindings.Proofs.Grammar.Semicolons
import EventBindings.Proofs.Text.Bytes
import EventBindings.Proofs.Token.Tiling
import EventBindings.Proofs.Grammar.KeyAgreement
import EventBindings.Proofs.Handler.Alterations
import EventBindings.Proofs.Handler.Outcomes
import EventBindings.Proofs.DeclaredEvents
import EventBindings.Proofs.Conflict.FirstConflict
import EventBindings.Proofs.Conflict.Variants
import EventBindings.Proofs.ActionKey.Refusals
import EventBindings.Proofs.ActionKey.RuleReading
import EventBindings.Proofs.Grammar.Brackets
import EventBindings.Proofs.Token.Unreadable
import EventBindings.Proofs.Grammar.ViablePrefix
import EventBindings.Proofs.Handler.Actions
import EventBindings.Proofs.Registry
import EventBindings.Proofs.Element.Lines
import EventBindings.Proofs.Handler.Calls
import EventBindings.Proofs.Modifiers
import EventBindings.Proofs.Settings
