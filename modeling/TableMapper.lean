import TableMapper.Main
import TableMapper.Run.Manifest
import TableMapper.Proofs.Artifact.Agreement
import TableMapper.Proofs.Artifact.Evaluation
import TableMapper.Proofs.Artifact.KeyedUpdates
import TableMapper.Proofs.Merge.ByteOffsets
import TableMapper.Proofs.Merge.Displacement
import TableMapper.Proofs.Merge.HandWritten
import TableMapper.Proofs.Merge.KeptAnnotations
import TableMapper.Proofs.Merge.KeptContent
import TableMapper.Proofs.Merge.KeptInterfaces
import TableMapper.Proofs.Merge.OpenElement
import TableMapper.Proofs.Merge.OtherTypes
import TableMapper.Proofs.Plugin.Isolation
import TableMapper.Proofs.Run.Regeneration
import TableMapper.Proofs.Run.Outcomes
import TableMapper.Proofs.Run.Halting
import TableMapper.Proofs.Run.Cancellation
import TableMapper.Proofs.Run.Failures
import TableMapper.Proofs.Run.Clashes
import TableMapper.Proofs.Run.SharedTargets
import TableMapper.Proofs.Run.Unmergeable
import TableMapper.Proofs.Artifact.BatchValues
import TableMapper.Proofs.Artifact.FilterMeaning
import TableMapper.Proofs.Artifact.GeneratedKeys
import TableMapper.Proofs.Run.RolesTold
import TableMapper.Proofs.Table.EveryTable
import TableMapper.Proofs.Artifact.Links
import TableMapper.Proofs.Artifact.RowAssignments
import TableMapper.Proofs.Markup.FaithfulText
import TableMapper.Proofs.Merge.RegeneratedDocument
import TableMapper.Proofs.Artifact.Remarks
import TableMapper.Proofs.Artifact.DeclaredOnce
import TableMapper.Proofs.Run.NextRun
import TableMapper.Proofs.Merge.OwnComments
import TableMapper.Proofs.Merge.RefusedTypes
import TableMapper.Proofs.Settings.NamePatterns
import TableMapper.Proofs.Table.KeyOrder
import TableMapper.Proofs.Table.NumericRanges
import TableMapper.Proofs.Table.DeclaredKeys
import TableMapper.Proofs.Ddl.DelimitedNames
import TableMapper.Proofs.Artifact.NeededImports
import TableMapper.Proofs.Artifact.SimpleNames
import TableMapper.Proofs.Artifact.AccessorNames
import TableMapper.Proofs.Merge.BodyPartition
