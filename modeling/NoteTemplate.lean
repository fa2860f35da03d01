import NoteTemplate.Main
import NoteTemplate.Proofs.Compose.Template
import NoteTemplate.Proofs.Deferred.FlagSound
import NoteTemplate.Proofs.Deferred.Questions
import NoteTemplate.Proofs.Deferred.Unanswered
import NoteTemplate.Proofs.Deferred.WholePlaceholders
import NoteTemplate.Proofs.Forms.Filling
import NoteTemplate.Proofs.Progress.Template
import NoteTemplate.Proofs.Provenance.Lossless
import NoteTemplate.Proofs.Render.LoopIsolation
import NoteTemplate.Proofs.Render.Mistakes
import NoteTemplate.Proofs.Render.TrimMarks
import NoteTemplate.Proofs.RoundTrip.Template
import NoteTemplate.Proofs.Scanning.StrayDigits
import NoteTemplate.Proofs.Scanning.Tiling
import NoteTemplate.Proofs.Scope.Mentions
import NoteTemplate.Proofs.Scope.NoFalseAlarm
import NoteTemplate.Proofs.Scope.Shadowing
import NoteTemplate.Proofs.Cache.Entries
import NoteTemplate.Proofs.Cache.Recency
import NoteTemplate.Proofs.Blocks.Grammar
import NoteTemplate.Proofs.Blocks.Laminar
import NoteTemplate.Proofs.Cache.Lifetime
import NoteTemplate.Proofs.Cache.PageAnswers
import NoteTemplate.Proofs.Cache.Transparent
import NoteTemplate.Proofs.Decimal.Rounding
import NoteTemplate.Proofs.Decimal.FloatOfInt
import NoteTemplate.Proofs.Deferred.Edges
import NoteTemplate.Proofs.Json.ReadBack
import NoteTemplate.Proofs.Filter.FileName
import NoteTemplate.Proofs.Filter.Replacement
import NoteTemplate.Proofs.Filter.SplitJoin
import NoteTemplate.Proofs.Param.Cuts
import NoteTemplate.Proofs.Paths.Dotted
import NoteTemplate.Proofs.Value.IntegerOrder
import NoteTemplate.Proofs.Cache.RepeatedQuestions
import NoteTemplate.Proofs.Filter.Columns
import NoteTemplate.Proofs.Filter.Duplicates
import NoteTemplate.Proofs.Filter.NestedLists
import NoteTemplate.Proofs.Filter.Slots
import NoteTemplate.Proofs.Filter.Thousands
import NoteTemplate.Proofs.Scope.Interpolations
import NoteTemplate.Proofs.Text.EditDistance
