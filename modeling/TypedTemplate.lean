import TypedTemplate.Environment
import TypedTemplate.Main
import TypedTemplate.Object.Order
import TypedTemplate.Schema.Reading
import TypedTemplate.Proofs.Object.Inert
import TypedTemplate.Proofs.Object.Later
import TypedTemplate.Proofs.Template.Substitution
import TypedTemplate.Proofs.Choice.Commit
import TypedTemplate.Proofs.Descriptor.RoundTrip
import TypedTemplate.Proofs.Scope.Merge
import TypedTemplate.Proofs.Scope.Sibling
import TypedTemplate.Proofs.Object.MapLookup
import TypedTemplate.Proofs.Ref.RoundTrip
import TypedTemplate.Proofs.Schema.Descriptor
import TypedTemplate.Proofs.Descriptor.Validated
import TypedTemplate.Proofs.Object.Interchange
import TypedTemplate.Proofs.Scope.Leftover
import TypedTemplate.Proofs.Object.Promised
import TypedTemplate.Proofs.Command.Schema
import TypedTemplate.Proofs.Object.Reload
import TypedTemplate.Proofs.Scope.StringBinding
import TypedTemplate.Proofs.Choice.Lookup
import TypedTemplate.Proofs.Scope.Self
import TypedTemplate.Proofs.Object.Load
import TypedTemplate.Proofs.Descriptor.Canonical
import TypedTemplate.Proofs.Descriptor.Failure
import TypedTemplate.Proofs.Descriptor.Complete
import TypedTemplate.Proofs.Scope.Specific
import TypedTemplate.Proofs.Scope.Search
import TypedTemplate.Proofs.Scope.Fallback
import TypedTemplate.Proofs.Object.FindConcat
import TypedTemplate.Proofs.Ref.Grammar
import TypedTemplate.Proofs.Template.Split
import TypedTemplate.Proofs.Scope.Flatten
import TypedTemplate.Proofs.Value.Merge
import TypedTemplate.Proofs.Value.Order
import TypedTemplate.Proofs.Object.Order
import TypedTemplate.Proofs.Descriptor.Recursion
import TypedTemplate.Proofs.Descriptor.Memo
import TypedTemplate.Proofs.Object.Update
import TypedTemplate.Proofs.Object.Fault
