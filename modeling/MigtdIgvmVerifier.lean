import MigtdIgvmVerifier.Rust.Core
import MigtdIgvmVerifier.Rust.Str
import MigtdIgvmVerifier.Igvm.Directive
import MigtdIgvmVerifier.Cfv.FvHeader
import MigtdIgvmVerifier.Cfv.Reconstruct
import MigtdIgvmVerifier.Cfv.Extract
import MigtdIgvmVerifier.Policy.FmspcScan
import MigtdIgvmVerifier.Config.Layout
import MigtdIgvmVerifier.Quote.Extractor
import MigtdIgvmVerifier.Policy.Pipeline
import MigtdIgvmVerifier.Policy.PolicyVerifier
