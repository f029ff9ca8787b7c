import PostMarkup.Main
import PostMarkup.Proofs.Dialect.PartialOutput
import PostMarkup.Proofs.Dialect.Transduction
import PostMarkup.Proofs.Dialect.VisibleText
import PostMarkup.Proofs.Html.Retokenizing
import PostMarkup.Proofs.Html.UntouchedText
import PostMarkup.Proofs.Markdown.TableClass
import PostMarkup.Proofs.Dialect.Concatenation
import PostMarkup.Proofs.Dialect.BlankOutput
import PostMarkup.Proofs.Dialect.LiteralText
import PostMarkup.Proofs.Rendering
import PostMarkup.Proofs.Dialect.CommonMarkup
import PostMarkup.Proofs.Dialect.HtmlAgreement
import PostMarkup.Proofs.Policy.SkipZone
import PostMarkup.Proofs.Policy.Innermost
import PostMarkup.Proofs.Dialect.OutputAttributes
import PostMarkup.Proofs.Dialect.Containment
import PostMarkup.Proofs.Html.ShelteredText
import PostMarkup.Proofs.Dialect.DistinctKeys
import PostMarkup.Proofs.Html.RawBodies
import PostMarkup.Proofs.Html.TextNodes
import PostMarkup.Proofs.Html.Fragment
import PostMarkup.Proofs.Typography.LeftHyphens
import PostMarkup.Proofs.Typography.Escaping
import PostMarkup.Proofs.Typography.Guillemets
import PostMarkup.Proofs.Typography.KeptReferences
import PostMarkup.Proofs.Dialect.LinkTarget
import PostMarkup.Proofs.Typography.Survivors
import PostMarkup.Proofs.Typography.Settled
import PostMarkup.Proofs.Dialect.Canonical
import PostMarkup.Proofs.Html.Slicing
