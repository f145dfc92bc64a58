import SubxCore.Common.Decimal
/-!
# Errors

The variants of `SubXError` that the modelled functions raise, with the
texts they carry.
-/

namespace SubxCore

/-- The error type of the crate. -/
inductive SubXError
  | io (message : Text)
  | config (message : Text)
  | subtitleFormat (format message : Text)
  | aiService (message : Text)
  | audioProcessing (message : Text)
  | fileMatching (message : Text)
  | fileNotFound (path : Text)
  | fileOperationFailed (message : Text)
  | commandExecution (message : Text)
  | noInputSpecified
  | invalidPath (path : Text)
  | pathNotFound (path : Text)
  | directoryReadError (path source : Text)
  | invalidSyncConfiguration
  | other (message : Text)
  deriving DecidableEq, Repr

/-- The text an error is shown as. -/
def SubXError.display : SubXError → Text
  | .io message => "I/O error: ".toList ++ message
  | .config message => "Configuration error: ".toList ++ message
  | .subtitleFormat format message =>
    "Subtitle format error [".toList ++ format ++ "]: ".toList ++ message
  | .aiService message => "AI service error: ".toList ++ message
  | .audioProcessing message => "Audio processing error: ".toList ++ message
  | .fileMatching message => "File matching error: ".toList ++ message
  | .fileNotFound path => "File not found: ".toList ++ path
  | .fileOperationFailed message => "File operation failed: ".toList ++ message
  | .commandExecution message => message
  | .noInputSpecified => "No input path specified".toList
  | .invalidPath path => "Invalid path: ".toList ++ path
  | .pathNotFound path => "Path not found: ".toList ++ path
  | .directoryReadError path _ => "Unable to read directory: ".toList ++ path
  | .invalidSyncConfiguration =>
    "Invalid sync configuration: please specify video and subtitle files, ".toList ++
      "or use -i parameter for batch processing".toList
  | .other message => "Unknown error: ".toList ++ message

/-- The category of an error in the machine-readable output. -/
def SubXError.category : SubXError → Text
  | .io _ => "io".toList
  | .config _ => "config".toList
  | .subtitleFormat _ _ => "subtitle_format".toList
  | .aiService _ => "ai_service".toList
  | .audioProcessing _ => "audio_processing".toList
  | .fileMatching _ => "file_matching".toList
  | .fileNotFound _ => "file_not_found".toList
  | .fileOperationFailed _ => "file_operation_failed".toList
  | .commandExecution _ => "command_execution".toList
  | .noInputSpecified => "no_input_specified".toList
  | .invalidPath _ => "invalid_path".toList
  | .pathNotFound _ => "path_not_found".toList
  | .directoryReadError _ _ => "directory_read_error".toList
  | .invalidSyncConfiguration => "invalid_sync_configuration".toList
  | .other _ => "other".toList

/-- Its machine code. -/
def SubXError.machineCode : SubXError → Text
  | .io _ => "E_IO".toList
  | .config _ => "E_CONFIG".toList
  | .subtitleFormat _ _ => "E_SUBTITLE_FORMAT".toList
  | .aiService _ => "E_AI_SERVICE".toList
  | .audioProcessing _ => "E_AUDIO_PROCESSING".toList
  | .fileMatching _ => "E_FILE_MATCHING".toList
  | .fileNotFound _ => "E_FILE_NOT_FOUND".toList
  | .fileOperationFailed _ => "E_FILE_OPERATION_FAILED".toList
  | .commandExecution _ => "E_COMMAND_EXECUTION".toList
  | .noInputSpecified => "E_NO_INPUT_SPECIFIED".toList
  | .invalidPath _ => "E_INVALID_PATH".toList
  | .pathNotFound _ => "E_PATH_NOT_FOUND".toList
  | .directoryReadError _ _ => "E_DIRECTORY_READ_ERROR".toList
  | .invalidSyncConfiguration => "E_INVALID_SYNC_CONFIGURATION".toList
  | .other _ => "E_OTHER".toList

/-- `SubXError::parallel_processing`. -/
def SubXError.parallelProcessing (msg : Text) : SubXError :=
  .commandExecution ("Parallel processing error: ".toList ++ msg)

end SubxCore
