import ItemFilter.Line.Summary
import ItemFilter.Main
import ItemFilter.Proofs.Acceptance
import ItemFilter.Proofs.Check
import ItemFilter.Proofs.Messages
import ItemFilter.Proofs.Numbers
import ItemFilter.Proofs.Recognition
import ItemFilter.Proofs.Session
import ItemFilter.Proofs.Solutions
import ItemFilter.Proofs.Versions
import ItemFilter.Proofs.WellFormed
import ItemFilter.Proofs.Locality
import ItemFilter.Proofs.Padding
import ItemFilter.Proofs.Layout
import ItemFilter.Proofs.Storage
import ItemFilter.Proofs.Rendering
import ItemFilter.Proofs.Completion
import ItemFilter.Proofs.Division
import ItemFilter.Proofs.Retention
import ItemFilter.Proofs.Saving
import ItemFilter.Proofs.Overlap
import ItemFilter.Proofs.Queries
import ItemFilter.Proofs.Shifting
import ItemFilter.Proofs.Unbroken
import ItemFilter.Proofs.Outline
import ItemFilter.Proofs.CommandLine
