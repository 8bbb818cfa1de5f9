import CodingOpd.Adaptive.Coverage
import CodingOpd.Adaptive.Alignment
import CodingOpd.Adaptive.Suffix
import CodingOpd.Adaptive.Online
import CodingOpd.Prefetch.Resume
import CodingOpd.CodexEval.Survival
import CodingOpd.ExternalEval.Resumption
import CodingOpd.Oci.Closed
import CodingOpd.Selection.Exact
import CodingOpd.Selection.OrderFree
import CodingOpd.Selection.Optimal
import CodingOpd.Selection.Proportional
import CodingOpd.Selection.Agreement
import CodingOpd.SweSmith.Debug
import CodingOpd.SweSmith.Eval
import CodingOpd.Oci.Resume
import CodingOpd.Oci.Pinned
import CodingOpd.Oci.Normalize
import CodingOpd.ExternalEval.Regrade
import CodingOpd.ExternalEval.Summary
import CodingOpd.CodexAgent.Jsonl
import CodingOpd.CodexServer.History
import CodingOpd.R2eTask.Verdict
import CodingOpd.R2eTask.WorkingDirectory
import CodingOpd.CodexEval.Phase
import CodingOpd.Adaptive.Isolation
import CodingOpd.TrainingRecord.Export
import CodingOpd.DeepSwe.VerifierImages
import CodingOpd.DeepSwe.TaskTree
import CodingOpd.Selection.Frozen
import CodingOpd.Selection.Dominance
import CodingOpd.CodexEval.Results
import CodingOpd.ExternalEval.TqKeys
import CodingOpd.Qwen35Kernels.PackedSequences
import CodingOpd.OpdFramework.Scored
import CodingOpd.OpdFramework.Progress
import CodingOpd.UnixSocketProxy.Relay
import CodingOpd.Profiling.Recorded
import CodingOpd.OssDownload.Ready
import CodingOpd.ParallelStartup.Finishes
import CodingOpd.TaskRuns.Contained
