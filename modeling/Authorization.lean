import Authorization.Composition.Transcript
import Authorization.Decision.Description
import Authorization.Config.Codec
import Authorization.Console
import Authorization.Restriction.Definition
import Authorization.Restriction.Catalogue
import Authorization.Restriction.Pattern
import Authorization.Glob.Matching
import Authorization.Restriction.Arrangement
import Authorization.Restriction.Session
import Authorization.Decision.Report
import Authorization.Session.Assembly
import Authorization.Session
import Authorization.Text.Alphanumeric
import Authorization.CommandLine.Run
import Authorization.Restriction.Codec
import Authorization.Main
import Authorization.Regex.Basic
import Authorization.Regex.Reader
import Authorization.Regex.Support
import Authorization.Proofs.Composition.Fold
import Authorization.Proofs.Composition.Opinion
import Authorization.Proofs.Content.Concealment
import Authorization.Proofs.Policy.Evaluation
import Authorization.Proofs.Provider.Opinion
import Authorization.Proofs.Decision.Opinion
import Authorization.Proofs.Decision.Memory
import Authorization.Proofs.Decision.ReadFlags
import Authorization.Proofs.Decision.Walk
import Authorization.Proofs.Decision.Agreement
import Authorization.Proofs.Decision.Hiding
import Authorization.Proofs.Decision.Lifetime
import Authorization.Proofs.Composition.Purity
import Authorization.Proofs.Privileges.Translation
import Authorization.Proofs.Privileges.Cover
import Authorization.Proofs.Privileges.Opinion
import Authorization.Proofs.Privileges.Agreement
import Authorization.Proofs.Decision.ReadAll
import Authorization.Proofs.Provider.Flattening
import Authorization.Proofs.Decision.Flattening
import Authorization.Proofs.Decision.Lawfulness
import Authorization.Proofs.Provider.Spelling
import Authorization.Proofs.Provider.Likeness
import Authorization.Proofs.Config.Entries
import Authorization.Proofs.Decision.Likeness
import Authorization.Proofs.World.Publication
import Authorization.Proofs.Restriction.Catalogue
import Authorization.Proofs.Restriction.Pattern
import Authorization.Proofs.Restriction.Sources
import Authorization.Proofs.Restriction.Flattening
import Authorization.Proofs.Restriction.Storage
import Authorization.Proofs.Restriction.Reading
import Authorization.Proofs.Restriction.Enforcement
import Authorization.Proofs.CommandLine.Matching
import Authorization.Proofs.Composition.Recording
import Authorization.Proofs.Composition.Questioning
import Authorization.Proofs.Provider.Refreshing
import Authorization.Proofs.Restriction.Enclosure
import Authorization.Proofs.Restriction.Routing
import Authorization.Proofs.Mask.RoundTrip
import Authorization.Proofs.Config.RoundTrip
import Authorization.Proofs.Text.Pieces
import Authorization.Proofs.Actions.Translation
import Authorization.Proofs.Json.RoundTrip
import Authorization.Proofs.Config.Mentions
import Authorization.Proofs.Privileges.Tally
import Authorization.Proofs.Decision.Stepwise
import Authorization.Proofs.Decision.Consultation
import Authorization.Proofs.Decision.Lockstep
import Authorization.Proofs.Decision.Collapse
import Authorization.Proofs.Restriction.Placing
import Authorization.Proofs.Restriction.Unrestricted
import Authorization.Proofs.Restriction.Validation
import Authorization.Proofs.Restriction.Refusal
import Authorization.Proofs.Content.Resolution
import Authorization.Proofs.Config.Content
import Authorization.Proofs.Path.Hierarchy
import Authorization.Proofs.Content.Special
import Authorization.Proofs.Decision.Typing
import Authorization.Proofs.Provider.Namesakes
