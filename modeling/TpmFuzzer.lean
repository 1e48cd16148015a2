import TpmFuzzer.Lib.Bytes
import TpmFuzzer.Lib.Traced
import TpmFuzzer.Tpm.Wire
import TpmFuzzer.Session.State
import TpmFuzzer.Session.Command
import TpmFuzzer.Lib.Runs
import TpmFuzzer.Session.Response
import TpmFuzzer.Session.Names
import TpmFuzzer.Session.Steps
import TpmFuzzer.Session.Safety
import TpmFuzzer.Session.Messages
import TpmFuzzer.Session.Rewrite
import TpmFuzzer.Session.Turns
import TpmFuzzer.Session.Pairing
import TpmFuzzer.Session.Sessions
import TpmFuzzer.Session.Objects
import TpmFuzzer.Lib.Frames
import TpmFuzzer.Parser.ByteParser
import TpmFuzzer.Lib.Writer
import TpmFuzzer.Lib.Reader
import TpmFuzzer.Tpm.Structures
import TpmFuzzer.Tpm.Mu
import TpmFuzzer.Tpm.Grammar
import TpmFuzzer.Proto.Messages
import TpmFuzzer.Proto.Marshal
import TpmFuzzer.Proto.Encoding
import TpmFuzzer.Lib.Py
import TpmFuzzer.Python.Types
import TpmFuzzer.Python.Command
import TpmFuzzer.Harness.Streams
import TpmFuzzer.Python.Classes
import TpmFuzzer.Python.RoundTrip
import TpmFuzzer.Python.Agreement
import TpmFuzzer.Proto.Normalization
import TpmFuzzer.Python.Templates
import TpmFuzzer.Proto.Refusal
import TpmFuzzer.Proto.Postprocessors
import TpmFuzzer.Harness.Layout
import TpmFuzzer.Harness.Tags
import TpmFuzzer.Harness.Authorization
import TpmFuzzer.Session.FurtherEntries
import TpmFuzzer.Harness.Starts
import TpmFuzzer.Session.Replies
import TpmFuzzer.Session.BadResponses
import TpmFuzzer.Python.Sessions
import TpmFuzzer.Python.PublicAreas
import TpmFuzzer.Session.NameRuns
import TpmFuzzer.Proto.NormalForms
import TpmFuzzer.Proto.ReadBack
import TpmFuzzer.Harness.AuthAreas
import TpmFuzzer.Lib.Storing
import TpmFuzzer.Lib.Groups
import TpmFuzzer.Python.Seeds
import TpmFuzzer.Python.Regeneration
import TpmFuzzer.Python.SeedRuns
import TpmFuzzer.Session.Layer
import TpmFuzzer.Session.Refinement
import TpmFuzzer.Session.Peer
import TpmFuzzer.Session.Agreement
import TpmFuzzer.Harness.Wrapper
import TpmFuzzer.Harness.Drivers
import TpmFuzzer.Tpm.Parameters
import TpmFuzzer.Harness.CommandTable
import TpmFuzzer.Harness.CommandGrammar
import TpmFuzzer.Python.ByteCommands
import TpmFuzzer.Python.ByteGrammar
import TpmFuzzer.Python.ByteReading
import TpmFuzzer.Harness.SeedFiles
import TpmFuzzer.Lib.Text
import TpmFuzzer.Python.Filling
import TpmFuzzer.Harness.TesterOutput
import TpmFuzzer.Harness.SeedUpkeep
import TpmFuzzer.Harness.Meaning
