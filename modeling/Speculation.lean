import Speculation.Bailout.Arguments
import Speculation.Bailout.Assembly
import Speculation.Bailout.Basic
import Speculation.Bailout.Inspection
import Speculation.Bailout.Materialize
import Speculation.Bailout.Recovered
import Speculation.Bailout.Replacement
import Speculation.Cache.Access
import Speculation.Cache.Call
import Speculation.Cache.Dispatch
import Speculation.Cache.Guards
import Speculation.Cache.Key
import Speculation.Cache.Keyed
import Speculation.Cache.Kind
import Speculation.Cache.Load
import Speculation.Cache.Operator
import Speculation.Cache.Policy
import Speculation.Cache.Site
import Speculation.Cache.State
import Speculation.Cache.Store
import Speculation.Cache.Stub
import Speculation.Cache.StubCache
import Speculation.Cache.StubTable
import Speculation.Code.Basic
import Speculation.Code.Registry
import Speculation.Code.Space
import Speculation.Config
import Speculation.Config.Json
import Speculation.Double.Arithmetic
import Speculation.Double.Basic
import Speculation.Double.Shortest
import Speculation.Double.Text
import Speculation.ElementsKind
import Speculation.Engine.Basic
import Speculation.Engine.Execution
import Speculation.Fault
import Speculation.Feedback.Binary
import Speculation.Feedback.Compare
import Speculation.Feedback.ToBoolean
import Speculation.Feedback.Types
import Speculation.Feedback.Unary
import Speculation.Frame.Basic
import Speculation.Frame.Stack
import Speculation.Frame.Word
import Speculation.Heap.Access
import Speculation.Heap.Basic
import Speculation.Heap.Call
import Speculation.Heap.Convert
import Speculation.Heap.Create
import Speculation.Heap.Elements
import Speculation.Heap.Lookup
import Speculation.Heap.Property
import Speculation.Heap.SampleHost
import Speculation.Main
import Speculation.Object
import Speculation.Power
import Speculation.Proofs.Action
import Speculation.Proofs.Bailout.Arguments
import Speculation.Proofs.Bailout.Budget
import Speculation.Proofs.Bailout.Conversion
import Speculation.Proofs.Bailout.Denotation
import Speculation.Proofs.Bailout.Faults
import Speculation.Proofs.Bailout.Filling
import Speculation.Proofs.Bailout.Grammar
import Speculation.Proofs.Bailout.Inspection
import Speculation.Proofs.Bailout.Layout
import Speculation.Proofs.Bailout.Leaving
import Speculation.Proofs.Bailout.Materializing
import Speculation.Proofs.Bailout.Moves
import Speculation.Proofs.Bailout.Obstacles
import Speculation.Proofs.Bailout.Placeholders
import Speculation.Proofs.Bailout.Reasons
import Speculation.Proofs.Bailout.Rebuilding
import Speculation.Proofs.Bailout.Records
import Speculation.Proofs.Bailout.Replacement
import Speculation.Proofs.Bailout.Restoring
import Speculation.Proofs.Bailout.Stack
import Speculation.Proofs.Bailout.Success
import Speculation.Proofs.Bailout.View
import Speculation.Proofs.Bailout.Words
import Speculation.Proofs.Cache.Absence
import Speculation.Proofs.Cache.Accesses
import Speculation.Proofs.Cache.Archive
import Speculation.Proofs.Cache.Callee
import Speculation.Proofs.Cache.CalleeCalls
import Speculation.Proofs.Cache.Delegation
import Speculation.Proofs.Cache.ElementLoad
import Speculation.Proofs.Cache.ElementStore
import Speculation.Proofs.Cache.Elements
import Speculation.Proofs.Cache.EndlessCalls
import Speculation.Proofs.Cache.General
import Speculation.Proofs.Cache.Guards
import Speculation.Proofs.Cache.History
import Speculation.Proofs.Cache.Holder
import Speculation.Proofs.Cache.Installation
import Speculation.Proofs.Cache.KeyedCall
import Speculation.Proofs.Cache.KeyedSites
import Speculation.Proofs.Cache.KeyedSteps
import Speculation.Proofs.Cache.Load
import Speculation.Proofs.Cache.Misses
import Speculation.Proofs.Cache.NamedKey
import Speculation.Proofs.Cache.Origin
import Speculation.Proofs.Cache.Owners
import Speculation.Proofs.Cache.Polymorphism
import Speculation.Proofs.Cache.Progress
import Speculation.Proofs.Cache.Runs
import Speculation.Proofs.Cache.SecondLook
import Speculation.Proofs.Cache.Session
import Speculation.Proofs.Cache.Shapes
import Speculation.Proofs.Cache.Sharing
import Speculation.Proofs.Cache.Steps
import Speculation.Proofs.Cache.Store
import Speculation.Proofs.Cache.StubCacheKeys
import Speculation.Proofs.Cache.SwitchedOff
import Speculation.Proofs.Cache.Transfer
import Speculation.Proofs.Cache.Upkeep
import Speculation.Proofs.Cache.Walks
import Speculation.Proofs.Code.Bookkeeping
import Speculation.Proofs.Code.Handles
import Speculation.Proofs.Code.Lookup
import Speculation.Proofs.Code.Registry
import Speculation.Proofs.Code.Space
import Speculation.Proofs.Double.Exact
import Speculation.Proofs.Double.Integers
import Speculation.Proofs.Double.Numerals
import Speculation.Proofs.Double.Sums
import Speculation.Proofs.Feedback.Arithmetic
import Speculation.Proofs.Feedback.Fitting
import Speculation.Proofs.Feedback.Order
import Speculation.Proofs.Feedback.Remainders
import Speculation.Proofs.Feedback.Sites
import Speculation.Proofs.Feedback.Widening
import Speculation.Proofs.Frame.SlotIndices
import Speculation.Proofs.Heap.Additions
import Speculation.Proofs.Heap.Arrival
import Speculation.Proofs.Heap.Bare
import Speculation.Proofs.Heap.Calls
import Speculation.Proofs.Heap.Delegation
import Speculation.Proofs.Heap.Elements
import Speculation.Proofs.Heap.Getters
import Speculation.Proofs.Heap.Growth
import Speculation.Proofs.Heap.Invariant
import Speculation.Proofs.Heap.Layout
import Speculation.Proofs.Heap.Lookup
import Speculation.Proofs.Heap.Operations
import Speculation.Proofs.Heap.Owners
import Speculation.Proofs.Heap.Programs
import Speculation.Proofs.Heap.ReadOnly
import Speculation.Proofs.Iteration
import Speculation.Proofs.Property.Deletion
import Speculation.Proofs.Property.Elements
import Speculation.Proofs.Property.Keys
import Speculation.Proofs.Property.Mirrors
import Speculation.Proofs.Property.Named
import Speculation.Proofs.Property.Normalization
import Speculation.Proofs.Property.Own
import Speculation.Proofs.Property.Store
import Speculation.Proofs.Property.Twins
import Speculation.Proofs.Property.Updates
import Speculation.Proofs.Recipe.Agreement
import Speculation.Proofs.Recipe.Canonical
import Speculation.Proofs.Recipe.Reading
import Speculation.Proofs.Recipe.RoundTrip
import Speculation.Proofs.Recipe.Truncation
import Speculation.Proofs.Text.ArrayIndex
import Speculation.Proofs.Text.HexDump
import Speculation.Recipe.Buffer
import Speculation.Recipe.Command
import Speculation.Recipe.Cursor
import Speculation.Recipe.Opcode
import Speculation.Recipe.Stream
import Speculation.Shape
import Speculation.Table
import Speculation.Text.ArrayIndex
import Speculation.Text.Blank
import Speculation.Text.Hex
import Speculation.Text.Units
import Speculation.Tool.Arguments
import Speculation.Tool.Basic
import Speculation.Tool.Demo
import Speculation.Tool.Disassembly
import Speculation.Value
