import ScriptValues.Argument
import ScriptValues.Association
import ScriptValues.Checked
import ScriptValues.Config.Basic
import ScriptValues.Config.Document
import ScriptValues.Config.File
import ScriptValues.Event
import ScriptValues.Expr
import ScriptValues.Fault
import ScriptValues.Heap.Basic
import ScriptValues.Heap.Display
import ScriptValues.Heap.Equal
import ScriptValues.Heap.View
import ScriptValues.Machine
import ScriptValues.Method.Answer
import ScriptValues.Method.Arr
import ScriptValues.Method.Call
import ScriptValues.Method.Callback
import ScriptValues.Method.Host
import ScriptValues.Method.Num
import ScriptValues.Method.Str
import ScriptValues.Number.Arithmetic
import ScriptValues.Number.Basic
import ScriptValues.Number.Decimal
import ScriptValues.Number.Format
import ScriptValues.Number.Index
import ScriptValues.Proofs.Config.Props
import ScriptValues.Proofs.Congruence
import ScriptValues.Proofs.Heap.Bisimulation
import ScriptValues.Proofs.Heap.Comparison
import ScriptValues.Proofs.Heap.EqualText
import ScriptValues.Proofs.Heap.Equivalence
import ScriptValues.Proofs.Heap.PlainData
import ScriptValues.Proofs.Machine.Inventory
import ScriptValues.Proofs.Machine.Rename
import ScriptValues.Proofs.Machine.Sound
import ScriptValues.Proofs.Method.ArgumentCheck
import ScriptValues.Proofs.Method.ArraySearch
import ScriptValues.Proofs.Method.ArraySlice
import ScriptValues.Proofs.Method.Congruence
import ScriptValues.Proofs.Method.Iteration
import ScriptValues.Proofs.Method.Known
import ScriptValues.Proofs.Method.LiveReading
import ScriptValues.Proofs.Method.MapFailure
import ScriptValues.Proofs.Method.OneByOne
import ScriptValues.Proofs.Method.Rename
import ScriptValues.Proofs.Method.Reports
import ScriptValues.Proofs.Method.Resolution
import ScriptValues.Proofs.Method.SharedLists
import ScriptValues.Proofs.Method.SnapshotFold
import ScriptValues.Proofs.Method.SortContents
import ScriptValues.Proofs.Method.Writes
import ScriptValues.Proofs.Number.Counting
import ScriptValues.Proofs.Number.ExactPosition
import ScriptValues.Proofs.Number.Fields
import ScriptValues.Proofs.Number.Position
import ScriptValues.Proofs.Number.Printing
import ScriptValues.Proofs.Number.ReadBack
import ScriptValues.Proofs.Number.Rounding
import ScriptValues.Proofs.Number.Shortest
import ScriptValues.Proofs.Number.Text
import ScriptValues.Proofs.Script.ArrayWrites
import ScriptValues.Proofs.Script.Congruence
import ScriptValues.Proofs.Script.IterationMode
import ScriptValues.Proofs.Script.Known
import ScriptValues.Proofs.Script.LateBinding
import ScriptValues.Proofs.Script.MapMode
import ScriptValues.Proofs.Script.Rename
import ScriptValues.Proofs.Script.SuspensionCount
import ScriptValues.Proofs.Script.Tally
import ScriptValues.Proofs.Sort.Arrangement
import ScriptValues.Proofs.Sort.CutOff
import ScriptValues.Proofs.Sort.Dialogue
import ScriptValues.Proofs.Sort.Discipline
import ScriptValues.Proofs.Sort.Inquiry
import ScriptValues.Proofs.Task.Exchange
import ScriptValues.Proofs.Task.InStep
import ScriptValues.Proofs.Task.OneByOne
import ScriptValues.Proofs.Task.Rounds
import ScriptValues.Proofs.Text.Containment
import ScriptValues.Proofs.Text.IndexOf
import ScriptValues.Proofs.Text.LeadingInteger
import ScriptValues.Proofs.Text.Partition
import ScriptValues.Proofs.Text.Quoting
import ScriptValues.Proofs.Text.Replace
import ScriptValues.Proofs.Text.Search
import ScriptValues.Proofs.Text.Slice
import ScriptValues.Proofs.Text.Split
import ScriptValues.Proofs.Text.UnitAccess
import ScriptValues.Proofs.Text.Views
import ScriptValues.Proofs.Toml.Datum
import ScriptValues.Proofs.Toml.Distinct
import ScriptValues.Property
import ScriptValues.Script.Eval
import ScriptValues.Script.Run
import ScriptValues.Sort.Merge
import ScriptValues.Sort.Trial
import ScriptValues.Task.Basic
import ScriptValues.Task.Gather
import ScriptValues.Text.Break
import ScriptValues.Text.BreakTable
import ScriptValues.Text.Case
import ScriptValues.Text.CaseTable
import ScriptValues.Text.Grapheme
import ScriptValues.Text.Indexed
import ScriptValues.Text.Numeral
import ScriptValues.Text.PrintTable
import ScriptValues.Text.Quoted
import ScriptValues.Text.Ranges
import ScriptValues.Text.Search
import ScriptValues.Text.Space
import ScriptValues.Text.Unit
import ScriptValues.Toml.DateTime
import ScriptValues.Toml.Document
import ScriptValues.Toml.Numeral
import ScriptValues.Toml.Table
import ScriptValues.Toml.Text
import ScriptValues.Toml.Value
import ScriptValues.Value.Basic
import ScriptValues.Value.Method
