import DataRecovery.FAT32.ScanExact
import DataRecovery.FAT32.Undelete
import DataRecovery.ExFAT.DepthLimit
import DataRecovery.ExFAT.FatBase
import DataRecovery.ChainBounds
import DataRecovery.NTFS.Recovery
import DataRecovery.NTFS.Fixup
import DataRecovery.NTFS.Bounds
import DataRecovery.NTFS.Fragments
import DataRecovery.AnalyzedChain
import DataRecovery.OverwriteDetection
import DataRecovery.InPlace
import DataRecovery.KeptFiles
import DataRecovery.BatchFailures
import DataRecovery.PathResolution
import DataRecovery.OutputFolder
import DataRecovery.BlockScan
import DataRecovery.ExFAT.EntrySets
import DataRecovery.ExFAT.SectorBoundaries
import DataRecovery.ExFAT.LiveDirectories
import DataRecovery.FAT32.NameBoundaries
import DataRecovery.NTFS.MftReads
import DataRecovery.NTFS.ListedRecords
import DataRecovery.FileIds
import DataRecovery.Verdict
import DataRecovery.OverwriteEnds
import DataRecovery.Findings
import DataRecovery.FAT32.ContiguousVerdict
import DataRecovery.AnalysisFrame
import DataRecovery.DriveHandles
import DataRecovery.FAT32.Geometry
import DataRecovery.Prompt
import DataRecovery.FAT32.ListedOnce
import DataRecovery.ExFAT.Addressing
import DataRecovery.LastCluster
import DataRecovery.ExFAT.LongDirectories
import DataRecovery.ChainWalk
import DataRecovery.ExFAT.ContiguousFiles
import DataRecovery.CopyExact
import DataRecovery.NTFS.RunEncoding
import DataRecovery.NTFS.AttributeWalk
import DataRecovery.NTFS.RunShifts
import DataRecovery.NTFS.VolumeEnd
import DataRecovery.ExFAT.SectorSets
import DataRecovery.NTFS.NameTypes
import DataRecovery.ExFAT.MixedSets
import DataRecovery.FAT32.Checksums
import DataRecovery.ChainPattern
import DataRecovery.FAT32.Repetition
import DataRecovery.FAT32.ShortNames
import DataRecovery.FAT32.Signatures
import DataRecovery.FAT32.Extensions
import DataRecovery.IndexPairs
import DataRecovery.OverlapQueries
import DataRecovery.CommandLine
import DataRecovery.Confirmation
import DataRecovery.DriveHandler
import DataRecovery.Engine
import DataRecovery.Program
import DataRecovery.Journal
import DataRecovery.ScanLog
import DataRecovery.ExFAT.ScanExact
import DataRecovery.Footprint
import DataRecovery.ExFAT.Footprint
import DataRecovery.FAT32.Footprint
import DataRecovery.NTFS.Footprint
import DataRecovery.SectorsRead
import DataRecovery.StoredFiles
import DataRecovery.Reports
import DataRecovery.NTFS.ScanEnds
import DataRecovery.NTFS.ScanLists
import DataRecovery.Numbering
import DataRecovery.RunReturns
import DataRecovery.RunEndings
import DataRecovery.LogText
