import PropertySets.Calculator
import PropertySets.Checksum
import PropertySets.CommandLine.Arguments
import PropertySets.CommandLine.Configurator
import PropertySets.CommandLine.Generator
import PropertySets.Configuration.Basic
import PropertySets.Configuration.Decoding
import PropertySets.Configuration.Layers
import PropertySets.Configuration.Load
import PropertySets.Configuration.Printer
import PropertySets.Configuration.Validation
import PropertySets.Data.Integer
import PropertySets.Data.Json.Number
import PropertySets.Data.Json.Printer
import PropertySets.Data.Json.Reader
import PropertySets.Data.Real
import PropertySets.Data.Toml.Moment
import PropertySets.Data.Toml.Number
import PropertySets.Data.Toml.Printer
import PropertySets.Data.Toml.Quoted
import PropertySets.Data.Toml.Reader
import PropertySets.Data.Toml.Tree
import PropertySets.Data.Value
import PropertySets.Diagnostic
import PropertySets.Disk.Basic
import PropertySets.Disk.FileTree
import PropertySets.Document
import PropertySets.Dump
import PropertySets.Enumeration.Discriminant
import PropertySets.Enumeration.Ledger
import PropertySets.Enumeration.Reconciler
import PropertySets.Enumeration.Sheet
import PropertySets.Fresh
import PropertySets.Generate
import PropertySets.Language
import PropertySets.Main
import PropertySets.Naming.Identifier
import PropertySets.Naming.Routine
import PropertySets.Naming.Snake
import PropertySets.Naming.Tokens
import PropertySets.Path
import PropertySets.Proofs.Code.Execution
import PropertySets.Proofs.Code.Literals
import PropertySets.Proofs.Code.Machine
import PropertySets.Proofs.Code.Reader
import PropertySets.Proofs.Code.Reading
import PropertySets.Proofs.Code.Scanner
import PropertySets.Proofs.CommandLine.Agreement
import PropertySets.Proofs.CommandLine.Loading
import PropertySets.Proofs.CommandLine.Strict
import PropertySets.Proofs.Configuration.Layering
import PropertySets.Proofs.Configuration.Overlay
import PropertySets.Proofs.Configuration.Overrides
import PropertySets.Proofs.Configuration.Requirements
import PropertySets.Proofs.Configuration.Saving
import PropertySets.Proofs.Configuration.Settings
import PropertySets.Proofs.Data.Json
import PropertySets.Proofs.Data.Toml.Quoted
import PropertySets.Proofs.Data.Toml.Tables
import PropertySets.Proofs.Data.Toml.Values
import PropertySets.Proofs.Disk.Confined
import PropertySets.Proofs.Disk.Down
import PropertySets.Proofs.Disk.Extensions
import PropertySets.Proofs.Disk.FlatDirectory
import PropertySets.Proofs.Disk.LastNames
import PropertySets.Proofs.Disk.Listing
import PropertySets.Proofs.Disk.OwnedFiles
import PropertySets.Proofs.Disk.ReadOnly
import PropertySets.Proofs.Disk.Resolution
import PropertySets.Proofs.Disk.Siblings
import PropertySets.Proofs.Disk.Twins
import PropertySets.Proofs.Disk.Unlinked
import PropertySets.Proofs.Disk.Ways
import PropertySets.Proofs.Disk.Written
import PropertySets.Proofs.Document.Bare
import PropertySets.Proofs.Document.Cases
import PropertySets.Proofs.Document.Elements
import PropertySets.Proofs.Document.EntityReferences
import PropertySets.Proofs.Document.Enumerations
import PropertySets.Proofs.Document.Flaws
import PropertySets.Proofs.Document.Items
import PropertySets.Proofs.Document.Omissions
import PropertySets.Proofs.Document.Outline
import PropertySets.Proofs.Enumeration.Contents
import PropertySets.Proofs.Enumeration.Discriminants
import PropertySets.Proofs.Enumeration.Failures
import PropertySets.Proofs.Enumeration.FileNames
import PropertySets.Proofs.Enumeration.Moves
import PropertySets.Proofs.Enumeration.Records
import PropertySets.Proofs.Enumeration.Requests
import PropertySets.Proofs.Enumeration.Run
import PropertySets.Proofs.Enumeration.Steps
import PropertySets.Proofs.Enumeration.VariantNames
import PropertySets.Proofs.Generation.Artifacts
import PropertySets.Proofs.Generation.Completion
import PropertySets.Proofs.Generation.Conservation
import PropertySets.Proofs.Generation.Emission
import PropertySets.Proofs.Generation.Fates
import PropertySets.Proofs.Generation.FirstEnumerations
import PropertySets.Proofs.Generation.Footprint
import PropertySets.Proofs.Generation.Mounting
import PropertySets.Proofs.Generation.OutputName
import PropertySets.Proofs.Generation.References
import PropertySets.Proofs.Generation.Rewriting
import PropertySets.Proofs.Generation.Success
import PropertySets.Proofs.Naming.Bases
import PropertySets.Proofs.Naming.Literals
import PropertySets.Proofs.Naming.ModulePaths
import PropertySets.Proofs.Naming.Routines
import PropertySets.Proofs.Naming.SnakeCase
import PropertySets.Proofs.Naming.Stems
import PropertySets.Proofs.Naming.TagModules
import PropertySets.Proofs.Registration.Assignment
import PropertySets.Proofs.Registration.Calls
import PropertySets.Proofs.Registration.Code
import PropertySets.Proofs.Registration.Composition
import PropertySets.Proofs.Registration.Description
import PropertySets.Proofs.Registration.Execution
import PropertySets.Proofs.Registration.Literals
import PropertySets.Proofs.Registration.Locality
import PropertySets.Proofs.Registration.Meaning
import PropertySets.Proofs.Registration.Occurrences
import PropertySets.Proofs.Registration.Reading
import PropertySets.Proofs.Registry.Dump
import PropertySets.Proofs.Registry.Insertions
import PropertySets.Proofs.Scan.DepthFirst
import PropertySets.Proofs.Scan.Folders
import PropertySets.Proofs.Scan.Nesting
import PropertySets.Proofs.Scan.Refused
import PropertySets.Proofs.Version.Tags
import PropertySets.Registration.Emission
import PropertySets.Registration.Module
import PropertySets.Registration.OfRegistry
import PropertySets.Registration.Printer
import PropertySets.Registry
import PropertySets.Scan
import PropertySets.Schema.Definition
import PropertySets.Schema.Listing
import PropertySets.Schema.Record
import PropertySets.Text.Alphanumeric
import PropertySets.Text.Ascii
import PropertySets.Text.Blank
import PropertySets.Text.CaseMap
import PropertySets.Text.Digit
import PropertySets.Text.LetterCase
import PropertySets.Text.Pieces
import PropertySets.Text.Quoted
import PropertySets.Text.Ranges
import PropertySets.Text.Utf8
import PropertySets.Text.Visible
import PropertySets.Version
import PropertySets.Xml.CharacterData
import PropertySets.Xml.Fault
import PropertySets.Xml.Name
import PropertySets.Xml.Reader
import PropertySets.Xml.Token
import PropertySets.Xml.Tree
