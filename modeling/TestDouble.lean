import TestDouble.CommandLine.Run
import TestDouble.Files.Tree
import TestDouble.Main
import TestDouble.Outcome
import TestDouble.Recording.Basic
import TestDouble.Proofs.CommandLine.Reporting
import TestDouble.Proofs.CommandLine.Writing
import TestDouble.Proofs.FieldName.Order
import TestDouble.Proofs.Mock.Capture
import TestDouble.Proofs.Mock.Mirror
import TestDouble.Proofs.Mock.Restated
import TestDouble.Proofs.Mock.Signature
import TestDouble.Proofs.Mock.Spelling
import TestDouble.Proofs.Outcome.Answers
import TestDouble.Proofs.Outcome.Isolation
import TestDouble.Proofs.Outcome.Single
import TestDouble.Proofs.Protocol.Fault
import TestDouble.Proofs.Protocol.Idempotence
import TestDouble.Proofs.Protocol.Inheritance
import TestDouble.Proofs.Protocol.Merging
import TestDouble.Proofs.Protocol.MethodBody
import TestDouble.Proofs.Protocol.Nesting
import TestDouble.Proofs.Protocol.Progress
import TestDouble.Proofs.Protocol.Repeats
import TestDouble.Proofs.Protocol.Span
import TestDouble.Proofs.Protocol.Stack
import TestDouble.Proofs.Protocol.Unnamed
import TestDouble.Proofs.Recording.History
import TestDouble.Proofs.Recording.Override
import TestDouble.Proofs.Recording.Passing
import TestDouble.Proofs.SwiftType.Depth
import TestDouble.Proofs.SwiftType.Derived
import TestDouble.Proofs.SwiftType.Parentheses
import TestDouble.Proofs.Token.Group
import TestDouble.Proofs.Token.Inserting
import TestDouble.Proofs.Token.Layout
import TestDouble.Proofs.Token.Spacing
