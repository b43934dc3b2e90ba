import DecoderGen.Main
import DecoderGen.Proofs.CompileInvariance
import DecoderGen.Proofs.DecoderText
import DecoderGen.Proofs.DocumentSpelling
import DecoderGen.Proofs.DocumentText
import DecoderGen.Proofs.GeneratedFiles
import DecoderGen.Proofs.GeneratedNames
import DecoderGen.Proofs.NativeGuards
import DecoderGen.Proofs.OverlapAnalysis
import DecoderGen.Proofs.Regeneration
import DecoderGen.Proofs.RuleFaults
import DecoderGen.Proofs.RuleNames
import DecoderGen.Proofs.ShadowedRules
import DecoderGen.Proofs.StrictMode
import DecoderGen.Proofs.WriteOutcome
import DecoderGen.Proofs.DraftConditions
import DecoderGen.Proofs.AppendedRules
import DecoderGen.Proofs.CompileOutcome
import DecoderGen.Proofs.ReferenceDecode
import DecoderGen.Proofs.ShadowedNames
import DecoderGen.Proofs.PatternOrder
import DecoderGen.Proofs.EncodingSpace
import DecoderGen.Proofs.FieldGuards
import DecoderGen.Proofs.PatternText
