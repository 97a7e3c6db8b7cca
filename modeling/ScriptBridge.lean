import ScriptBridge.Main
import ScriptBridge.Syntax.Form
import ScriptBridge.Decimal.Remainder
import ScriptBridge.Proofs.Bookkeeping.Sessions
import ScriptBridge.Proofs.Boundary.Cleanliness
import ScriptBridge.Proofs.Grammar.RoundTrip
import ScriptBridge.Proofs.Isolation.Separation
import ScriptBridge.Proofs.Isolation.Reachable
import ScriptBridge.Proofs.Isolation.Interleaving
import ScriptBridge.Proofs.Boundary.Heeding
import ScriptBridge.Proofs.Typing.Growth
import ScriptBridge.Proofs.Typing.Shapes
import ScriptBridge.Proofs.Typing.Classification
import ScriptBridge.Proofs.Overloads.Fitting
import ScriptBridge.Proofs.Overloads.Selection
import ScriptBridge.Proofs.Overloads.Resolution
import ScriptBridge.Proofs.Overloads.Coercion
import ScriptBridge.Proofs.Overloads.Exactness
import ScriptBridge.Proofs.Conversions.Intact
import ScriptBridge.Proofs.Conversions.Unboxing
import ScriptBridge.Proofs.Conversions.Boxing
import ScriptBridge.Proofs.Conversions.RoundTrip
import ScriptBridge.Proofs.Causality.Aftermath
import ScriptBridge.Proofs.Causality.HandingOn
import ScriptBridge.Proofs.Causality.Carrier
import ScriptBridge.Proofs.Causality.Nesting
import ScriptBridge.Proofs.Causality.Calls
import ScriptBridge.Proofs.Joining.Programs
import ScriptBridge.Proofs.Limits.Heights
import ScriptBridge.Proofs.Limits.Counters
import ScriptBridge.Proofs.Flight.Single
import ScriptBridge.Proofs.Imports.Entry
import ScriptBridge.Proofs.Containers.Sequences
import ScriptBridge.Proofs.Atomicity.Statements
import ScriptBridge.Proofs.Pins.Leases
import ScriptBridge.Proofs.Pins.Transparency
import ScriptBridge.Proofs.Console.Gathering
import ScriptBridge.Proofs.Boundary.Attribution
import ScriptBridge.Proofs.Boundary.Naming
import ScriptBridge.Proofs.Lexing.Texts
import ScriptBridge.Proofs.Typing.Consultation
import ScriptBridge.Proofs.Typing.References
import ScriptBridge.Proofs.Console.Apart
import ScriptBridge.Proofs.Console.Checking
import ScriptBridge.Proofs.Console.Feeding
import ScriptBridge.Proofs.Arithmetic.Integers
import ScriptBridge.Proofs.Comparison.Equality
import ScriptBridge.Proofs.Lexing.Layout
import ScriptBridge.Proofs.Readback.Texts
import ScriptBridge.Proofs.Readback.Values
import ScriptBridge.Proofs.Hierarchy.Dispatch
import ScriptBridge.Proofs.Wrappers.Keys
import ScriptBridge.Proofs.Imports.BridgeModule
import ScriptBridge.Proofs.Families.Exclusion
