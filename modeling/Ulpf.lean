import Ulpf.Integrity.MerkleRoot
import Ulpf.Integrity.Inclusion
import Ulpf.Integrity.Consistency
import Ulpf.Integrity.Batcher
import Ulpf.Integrity.BatcherRuns
import Ulpf.Integrity.Restart
import Ulpf.Integrity.Tamper
import Ulpf.Integrity.BlockAudit
import Ulpf.Core.Classifier
import Ulpf.Core.LruCache
import Ulpf.Core.LruInvariant
import Ulpf.Core.UniversalParser
import Ulpf.Ai.Pipeline
import Ulpf.Ai.Drain
import Ulpf.Ai.DrainRuns
import Ulpf.Ai.DrainStability
import Ulpf.Core.NetworkEvents
import Ulpf.Core.Extractors.CiscoAsa
import Ulpf.Core.Extractors.Kaggle
import Ulpf.Core.Extractors.PaloAlto
import Ulpf.Core.Extractors.PfSense
import Ulpf.Core.Extractors.Suricata
import Ulpf.Ai.Envelope
import Ulpf.Cli.Ingest
import Ulpf.Core.LruPolicy
import Ulpf.Core.SignatureSlices
import Ulpf.Ai.DrainRetention
import Ulpf.Ai.Interleaving
import Ulpf.Library.Utf8
import Ulpf.Cli.Readers
import Ulpf.Ai.ParserDefinition
import Ulpf.Library.Strip
import Ulpf.Ai.ParserYaml
import Ulpf.Ai.YamlRoundTrip
import Ulpf.Ai.ExportedExtractor
import Ulpf.Ai.Laya
import Ulpf.Ai.Onboarder
import Ulpf.Ai.Triage
import Ulpf.Core.Extractors.KvSlices
import Ulpf.Core.Extractors.KvTotality
import Ulpf.Core.Extractors.KvRoundTrip
import Ulpf.Core.Extractors.CsvRoundTrip
import Ulpf.Ai.DrainSurges
import Ulpf.Integrity.Isolation
import Ulpf.Core.Words
import Ulpf.Generator.KaggleSyslog
import Ulpf.Library.Regex
import Ulpf.Library.RegexAnalysis
import Ulpf.Library.RegexSyntax
import Ulpf.Library.RegexContext
import Ulpf.Library.RegexPadding
import Ulpf.Ai.Patterns
import Ulpf.Ai.Padding
import Ulpf.Ai.GroupNames
import Ulpf.Library.RegexGroups
import Ulpf.Ai.Endpoints
import Ulpf.Ai.BestMatch
import Ulpf.Ai.TreeShape
import Ulpf.Integrity.AuditPaths
import Ulpf.Integrity.BatchBounds
import Ulpf.Integrity.VerifierTotality
import Ulpf.Library.PrefixPaths
import Ulpf.Library.StableSort
import Ulpf.Ai.ActionOrder
import Ulpf.Integrity.Columns
import Ulpf.Library.RegexPieces
import Ulpf.Library.Fillers
import Ulpf.Ai.LogMasker
import Ulpf.Ai.MaskShortcuts
import Ulpf.Library.IpAddress
import Ulpf.Core.Extractors.CiscoEndpoints
import Ulpf.Core.Ports
import Ulpf.Core.Extractors.PaloAltoHeader
import Ulpf.Integrity.SplitPoint
import Ulpf.Core.Extractors.CsvSpec
import Ulpf.Library.FanIn
import Ulpf.Cli.IngestSystem
import Ulpf.Library.RoundRobin
import Ulpf.Generator.Datasets
import Ulpf.Generator.Traffic
import Ulpf.Integrity.Forensics
import Ulpf.Library.Accounting
import Ulpf.Ai.Benchmark
import Ulpf.Library.Grouping
import Ulpf.Ai.Evaluator
import Ulpf.Library.Assignments
import Ulpf.Core.Extractors.FortigateLines
import Ulpf.Integrity.Evidence
import Ulpf.Cli.Onboarding
import Ulpf.Core.UdpWorkerPool
