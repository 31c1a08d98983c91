import ExtensionKit.Binary64.Reading
import ExtensionKit.Calendar.Reading
import ExtensionKit.Json.Reader
import ExtensionKit.Json.Text
import ExtensionKit.Main
import ExtensionKit.Proofs.Activity.Lifecycle
import ExtensionKit.Proofs.Artifact.Fingerprint
import ExtensionKit.Proofs.Declaration.RoundTrip
import ExtensionKit.Proofs.Function.Prologue
import ExtensionKit.Proofs.Generated.Lines
import ExtensionKit.Proofs.Generated.Literals
import ExtensionKit.Proofs.Generated.RecordProgram
import ExtensionKit.Proofs.Generated.Variables
import ExtensionKit.Proofs.Manifest.Registration
import ExtensionKit.Proofs.Record.Effect
import ExtensionKit.Proofs.Record.Runs
import ExtensionKit.Proofs.Registry.Conflicts
import ExtensionKit.Proofs.Settings.Resolution
import ExtensionKit.Proofs.Trigger.Lifecycle
import ExtensionKit.Proofs.Trigger.Retry
import ExtensionKit.Proofs.Typing.DateTimeText
import ExtensionKit.Proofs.Typing.Integers
import ExtensionKit.Proofs.Typing.ObjectText
import ExtensionKit.Record.Basic
import ExtensionKit.Signature
import ExtensionKit.Text.Blank
import ExtensionKit.Text.Capital
import ExtensionKit.Text.Literal
import ExtensionKit.Typing.Coercion
import ExtensionKit.Proofs.Calendar.Lenient
import ExtensionKit.Proofs.Record.Assignment
import ExtensionKit.Proofs.Record.Order
import ExtensionKit.Proofs.Trigger.Delivery
import ExtensionKit.Proofs.Typing.UnixSeconds
import ExtensionKit.Proofs.Generated.LegalIdentifiers
import ExtensionKit.Proofs.Manifest.TypeNames
import ExtensionKit.Proofs.Record.Absence
import ExtensionKit.Proofs.Typing.DateTimeOrder
import ExtensionKit.Proofs.Typing.Padding
