import ScriptHeap.Classes.Members
import ScriptHeap.Classes.Registry
import ScriptHeap.Display
import ScriptHeap.Heap.OpenUpvalues
import ScriptHeap.Heap.Sweep
import ScriptHeap.Proofs.HandleSafety
import ScriptHeap.Proofs.ExactAccounting
import ScriptHeap.Proofs.NearestDefinition
import ScriptHeap.Settings
import ScriptHeap.Slots.Lemmas
import ScriptHeap.Table.Lemmas
import ScriptHeap.Proofs.Inheritance
import ScriptHeap.Proofs.Readers
import ScriptHeap.Proofs.Collection
import ScriptHeap.Proofs.OpenList
import ScriptHeap.Proofs.SharedUpvalues
import ScriptHeap.Proofs.OrderedEntries
import ScriptHeap.Proofs.Refusals
import ScriptHeap.Proofs.Limits
import ScriptHeap.Proofs.ClosingLinks
import ScriptHeap.Proofs.BatchLinking
import ScriptHeap.Proofs.ChunkContents
import ScriptHeap.Proofs.LinkedCells
import ScriptHeap.Proofs.StreamClosing
import ScriptHeap.Proofs.BirthStamps
import ScriptHeap.Proofs.BatchReport
import ScriptHeap.Proofs.RepeatedBatches
import ScriptHeap.Proofs.FailingSweep
import ScriptHeap.Proofs.ClosedUpvalues
import ScriptHeap.Proofs.LateLinking
import ScriptHeap.Proofs.ChunkCapacity
import ScriptHeap.Proofs.NumericAccess
import ScriptHeap.Proofs.DisplayDepth
import ScriptHeap.Proofs.PrintedContents
import ScriptHeap.Proofs.FreeingOrder
import ScriptHeap.Proofs.DeclaredParents
import ScriptHeap.Proofs.HeapLedger
import ScriptHeap.Proofs.Pacing
import ScriptHeap.Proofs.Arrivals
import ScriptHeap.Proofs.EndingLoops
import ScriptHeap.Proofs.ConfigText
import ScriptHeap.Proofs.FirstSettings
import ScriptHeap.Proofs.SubsystemLevels
import ScriptHeap.Proofs.HashSeparation
import ScriptHeap.Proofs.FaithfulStrings
import ScriptHeap.Proofs.SourceNames
